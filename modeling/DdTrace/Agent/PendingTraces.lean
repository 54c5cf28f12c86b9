import Mathlib.Data.List.Basic
import Mathlib.Logic.Function.Basic
import Mathlib.Tactic.Common
import DdTrace.Lib.TransitionSystem

/-!
# The agent writer: pending traces

The half of `AgentWriter` that passes traces from the threads that finish them to the
serialization thread: the queue of work items, the event that wakes the thread up, the exit flag,
and the control of `WriteTrace`, `FlushTracesAsync`, `FlushAndCloseAsync` and
`SerializeTracesLoop`. What `SerializeTrace` and `FlushBuffers` do is the other half (`Buffers`).

A step is one access to shared data, in a sequentially consistent order: an enqueue, a test of the
event, a `Set`, a `TryDequeue`, a `Wait` that returns, a `Reset`, a test of a task. A call of
`WriteTrace` is known by the trace it was given, a call of `FlushTracesAsync` by a number. A
`Task.Delay` may end at any time.

Source: `Agent/AgentWriter.cs`, `WriteTrace`, `FlushAndCloseAsync`, `FlushTracesAsync`,
`WriteWatermark`, `SerializeTracesLoop`.
-/

namespace DdTrace.Agent

open DdTrace.Lib

/-! ## Data -/

/-- A trace, by the call of `WriteTrace` it was given to. -/
abbrev TraceId := Nat

/-- A call of `FlushTracesAsync`. -/
abbrev CallId := Nat

/-- Source: `AgentWriter.cs`, `WorkItem` -/
inductive WorkItem where
  /-- A trace to serialize. -/
  | trace (trace : TraceId)
  /-- The watermark of a call of `FlushTracesAsync`. -/
  | callback (call : CallId)
  deriving DecidableEq, Repr

/-- Where a call of `WriteTrace` is. -/
inductive WriterPc where
  /-- It has not begun. -/
  | notCalled
  /-- About to read `_serializationTask.IsCompleted`. -/
  | testCompleted
  /-- About to enqueue the trace. -/
  | enqueue
  /-- About to read `_serializationMutex.IsSet`. -/
  | testEvent
  /-- About to call `_serializationMutex.Set()`. -/
  | set
  /-- In `SerializeTrace`, on the thread of the caller. -/
  | serialize
  /-- It has returned, or has thrown what `SerializeTrace` threw. -/
  | returned
  deriving DecidableEq, Repr

/-- Where a call of `FlushTracesAsync` is. -/
inductive CallPc where
  /-- It has not begun. -/
  | notCalled
  /-- About to read `_serializationTask.IsCompleted`. -/
  | testCompleted
  /-- About to enqueue the watermark. -/
  | enqueue
  /-- About to call `_serializationMutex.Set()`. -/
  | set
  /-- Awaiting the watermark. -/
  | await
  /-- In `FlushBuffers(true)`. -/
  | flush
  /-- Its task has completed. -/
  | returned
  deriving DecidableEq, Repr

/-- Where the call of `FlushAndCloseAsync` is that set the exit flag. -/
inductive ClosePc where
  /-- It has not begun. -/
  | notCalled
  /-- About to call `_serializationMutex.Set()`. -/
  | set
  /-- Awaiting the serialization task, the flush task and the delays. -/
  | await
  /-- In `FlushBuffers(flushAllBuffers: true)`. -/
  | flush
  /-- Its task has completed. -/
  | returned
  deriving DecidableEq, Repr

/-- Where `SerializeTracesLoop` is. -/
inductive LoopPc where
  /-- About to call `TryDequeue`. -/
  | dequeue
  /-- About to call the callback of a watermark. -/
  | callback (call : CallId)
  /-- In `SerializeTrace`. -/
  | serialize (trace : TraceId)
  /-- About to read `_processExit.Task.IsCompleted`. -/
  | exitTest
  /-- In `Thread.Sleep`. -/
  | sleep
  /-- In `_serializationMutex.Wait()`. -/
  | wait
  /-- About to call `_serializationMutex.Reset()`. -/
  | reset
  /-- The method has returned. -/
  | returned
  /-- `_serializationTask` is completed. -/
  | completed
  deriving DecidableEq, Repr

/-- The state of this half of the writer. The fields from `accepted` on are history. -/
structure PendingTraces where
  /-- `_pendingTraces`. -/
  queue : List WorkItem := []
  /-- `_serializationMutex.IsSet`. -/
  isSet : Bool := false
  /-- `_processExit.Task.IsCompleted`. -/
  processExit : Bool := false
  /-- The serialization thread. -/
  loop : LoopPc := .dequeue
  /-- The local variable of `SerializeTracesLoop`. -/
  hasDequeuedTraces : Bool := false
  /-- The calls of `WriteTrace`. -/
  writers : TraceId → WriterPc := fun _ => .notCalled
  /-- The calls of `FlushTracesAsync`. -/
  calls : CallId → CallPc := fun _ => .notCalled
  /-- The `TaskCompletionSource` of a call is completed. -/
  watermarkRun : CallId → Bool := fun _ => false
  /-- The call of `FlushAndCloseAsync`. -/
  closing : ClosePc := .notCalled
  /-- The traces that were enqueued, in order. -/
  accepted : List TraceId := []
  /-- The traces that were dequeued, in order. -/
  dequeued : List TraceId := []
  /-- The dequeued traces whose `SerializeTrace` is over, in order. -/
  processed : List TraceId := []
  /-- The traces that were enqueued when a call of `FlushTracesAsync` began. -/
  before : CallId → List TraceId := fun _ => []

/-! ## Steps -/

/-- What a call of `WriteTrace` does. -/
inductive WriteAction where
  /-- It is called. -/
  | call
  /-- It finds the serialization task running. -/
  | seesRunning
  /-- It finds the serialization task completed and calls `SerializeTrace`. -/
  | seesCompleted
  /-- It enqueues the trace. -/
  | enqueue
  /-- It finds the event set. -/
  | seesSet
  /-- It finds the event unset. -/
  | seesUnset
  /-- It sets the event. -/
  | set
  /-- `SerializeTrace` is over. -/
  | serialized
  deriving DecidableEq, Repr

/-- What a call of `FlushTracesAsync` does. -/
inductive FlushAction where
  /-- It is called. -/
  | call
  /-- It finds the serialization task running. -/
  | seesRunning
  /-- It finds the serialization task completed and calls `FlushBuffers`. -/
  | seesCompleted
  /-- It enqueues its watermark. -/
  | enqueue
  /-- It sets the event. -/
  | set
  /-- It is resumed by its watermark and calls `FlushBuffers`. -/
  | resumes
  /-- `FlushBuffers` is over. -/
  | returns
  deriving DecidableEq, Repr

/-- What the call of `FlushAndCloseAsync` does. -/
inductive CloseAction where
  /-- It sets the exit flag. -/
  | exit
  /-- It sets the event. -/
  | set
  /-- It finds the serialization task completed and calls `FlushBuffers`. -/
  | flush
  /-- It is over. -/
  | returns
  deriving DecidableEq, Repr

/-- What the serialization thread does. -/
inductive LoopAction where
  /-- `TryDequeue` takes a trace. -/
  | dequeueTrace (trace : TraceId)
  /-- `TryDequeue` takes a watermark. -/
  | dequeueCallback (call : CallId)
  /-- `TryDequeue` finds the queue empty. -/
  | dequeueNothing
  /-- The callback of a watermark completes its task. -/
  | callback
  /-- `SerializeTrace` returns. -/
  | serialized
  /-- `SerializeTrace` throws, and the loop catches the exception. -/
  | threw
  /-- The exit flag is set, and the loop returns. -/
  | exit
  /-- The exit flag is not set. -/
  | stay
  /-- `Thread.Sleep` is over. -/
  | wakeUp
  /-- `Wait` finds the event set. -/
  | waitReturns
  /-- `Reset`. -/
  | reset
  /-- `_serializationTask` completes. -/
  | complete
  deriving DecidableEq, Repr

/-- The steps of this half, by who takes them. -/
inductive QueueEvent where
  | write (trace : TraceId) (action : WriteAction)
  | flush (call : CallId) (action : FlushAction)
  | close (action : CloseAction)
  | loop (action : LoopAction)
  /-- The flush loop finds the serialization task running. -/
  | flushLoopSeesRunning
  deriving DecidableEq, Repr

namespace PendingTraces

/-- A call of `WriteTrace` moves on. -/
def setWriter (s : PendingTraces) (t : TraceId) (pc : WriterPc) : PendingTraces :=
  { s with writers := Function.update s.writers t pc }

/-- A call of `FlushTracesAsync` moves on. -/
def setCall (s : PendingTraces) (c : CallId) (pc : CallPc) : PendingTraces :=
  { s with calls := Function.update s.calls c pc }

@[simp] theorem setWriter_writers_self (s : PendingTraces) (t : TraceId) (pc : WriterPc) :
    (s.setWriter t pc).writers t = pc :=
  Function.update_self ..

theorem setWriter_writers_of_ne (s : PendingTraces) {t t' : TraceId} (pc : WriterPc)
    (hne : t' ≠ t) : (s.setWriter t pc).writers t' = s.writers t' :=
  Function.update_of_ne hne ..

@[simp] theorem setCall_calls_self (s : PendingTraces) (c : CallId) (pc : CallPc) :
    (s.setCall c pc).calls c = pc :=
  Function.update_self ..

theorem setCall_calls_of_ne (s : PendingTraces) {c c' : CallId} (pc : CallPc) (hne : c' ≠ c) :
    (s.setCall c pc).calls c' = s.calls c' :=
  Function.update_of_ne hne ..

/-- Source: `AgentWriter.cs`, `WriteTrace` -/
def writeTrace (s : PendingTraces) (t : TraceId) : WriteAction → Option PendingTraces
  | .call => if s.writers t = .notCalled then some (s.setWriter t .testCompleted) else none
  | .seesRunning =>
      if s.writers t = .testCompleted ∧ s.loop ≠ .completed then some (s.setWriter t .enqueue)
      else none
  | .seesCompleted =>
      if s.writers t = .testCompleted ∧ s.loop = .completed then some (s.setWriter t .serialize)
      else none
  | .enqueue =>
      if s.writers t = .enqueue then
        some { s.setWriter t .testEvent with
          queue := s.queue ++ [.trace t], accepted := s.accepted ++ [t] }
      else none
  | .seesSet =>
      if s.writers t = .testEvent ∧ s.isSet = true then some (s.setWriter t .returned) else none
  | .seesUnset =>
      if s.writers t = .testEvent ∧ s.isSet = false then some (s.setWriter t .set) else none
  | .set =>
      if s.writers t = .set then some { s.setWriter t .returned with isSet := true } else none
  | .serialized =>
      if s.writers t = .serialize then some (s.setWriter t .returned) else none

/-- Source: `AgentWriter.cs`, `FlushTracesAsync`, `WriteWatermark` -/
def flushTraces (s : PendingTraces) (c : CallId) : FlushAction → Option PendingTraces
  | .call =>
      if s.calls c = .notCalled then
        some { s.setCall c .testCompleted with before := Function.update s.before c s.accepted }
      else none
  | .seesRunning =>
      if s.calls c = .testCompleted ∧ s.loop ≠ .completed then some (s.setCall c .enqueue)
      else none
  | .seesCompleted =>
      if s.calls c = .testCompleted ∧ s.loop = .completed then some (s.setCall c .flush)
      else none
  | .enqueue =>
      if s.calls c = .enqueue then
        some { s.setCall c .set with queue := s.queue ++ [.callback c] }
      else none
  | .set => if s.calls c = .set then some { s.setCall c .await with isSet := true } else none
  | .resumes =>
      if s.calls c = .await ∧ s.watermarkRun c = true then some (s.setCall c .flush) else none
  | .returns => if s.calls c = .flush then some (s.setCall c .returned) else none

/-- Source: `AgentWriter.cs`, `FlushAndCloseAsync` -/
def flushAndClose (s : PendingTraces) : CloseAction → Option PendingTraces
  | .exit =>
      if s.closing = .notCalled ∧ s.processExit = false then
        some { s with processExit := true, closing := .set }
      else none
  | .set => if s.closing = .set then some { s with isSet := true, closing := .await } else none
  | .flush =>
      if s.closing = .await ∧ s.loop = .completed then some { s with closing := .flush } else none
  | .returns =>
      -- a delay is over, there is nothing left to flush, or `FlushBuffers` is over
      if s.closing = .await ∨ s.closing = .flush then some { s with closing := .returned }
      else none

/-- Source: `AgentWriter.cs`, `SerializeTracesLoop` -/
def serializeTracesLoop (s : PendingTraces) : LoopAction → Option PendingTraces
  | .dequeueTrace t =>
      if s.loop = .dequeue ∧ s.queue.head? = some (.trace t) then
        some { s with
          queue := s.queue.tail, loop := .serialize t, hasDequeuedTraces := true
          dequeued := s.dequeued ++ [t] }
      else none
  | .dequeueCallback c =>
      if s.loop = .dequeue ∧ s.queue.head? = some (.callback c) then
        some { s with queue := s.queue.tail, loop := .callback c }
      else none
  | .dequeueNothing =>
      if s.loop = .dequeue ∧ s.queue = [] then some { s with loop := .exitTest } else none
  | .callback =>
      match s.loop with
      | .callback c =>
          some { s with loop := .dequeue, watermarkRun := Function.update s.watermarkRun c true }
      | _ => none
  | .serialized =>
      match s.loop with
      | .serialize t => some { s with loop := .dequeue, processed := s.processed ++ [t] }
      | _ => none
  | .threw =>
      match s.loop with
      | .serialize t => some { s with loop := .exitTest, processed := s.processed ++ [t] }
      | _ => none
  | .exit =>
      if s.loop = .exitTest ∧ s.processExit = true then some { s with loop := .returned } else none
  | .stay =>
      if s.loop = .exitTest ∧ s.processExit = false then
        some { s with loop := if s.hasDequeuedTraces then .sleep else .wait }
      else none
  | .wakeUp =>
      if s.loop = .sleep then some { s with loop := .dequeue, hasDequeuedTraces := false }
      else none
  | .waitReturns =>
      if s.loop = .wait ∧ s.isSet = true then some { s with loop := .reset } else none
  | .reset =>
      if s.loop = .reset then
        some { s with isSet := false, loop := .dequeue, hasDequeuedTraces := false }
      else none
  | .complete => if s.loop = .returned then some { s with loop := .completed } else none

/-- One step, if it can be taken. -/
def step (s : PendingTraces) : QueueEvent → Option PendingTraces
  | .write t a => s.writeTrace t a
  | .flush c a => s.flushTraces c a
  | .close a => s.flushAndClose a
  | .loop a => s.serializeTracesLoop a
  | .flushLoopSeesRunning => if s.loop ≠ .completed then some s else none

/-- This half as a transition system. -/
def system : Lts PendingTraces QueueEvent := .ofStep {} step

end PendingTraces

/-! ## No wake-up is lost -/

namespace PendingTraces

variable {s u : PendingTraces}

/-- A producer has enqueued an item and has not yet made its test of the event and its `Set`. -/
def ProducerPending (s : PendingTraces) : Prop :=
  (∃ t, s.writers t = .testEvent ∨ s.writers t = .set) ∨ ∃ c, s.calls c = .set

/-- A pending producer stays pending while another call of `WriteTrace` moves on. -/
theorem ProducerPending.setWriter (h : s.ProducerPending) {t : TraceId}
    (ht : s.writers t ≠ .testEvent ∧ s.writers t ≠ .set) (pc : WriterPc) :
    (s.setWriter t pc).ProducerPending := by
  rcases h with ⟨t', ht'⟩ | hc
  · refine Or.inl ⟨t', ?_⟩
    have hne : t' ≠ t := by
      rintro rfl
      rcases ht' with ht' | ht'
      · exact ht.1 ht'
      · exact ht.2 ht'
    rw [setWriter_writers_of_ne s pc hne]
    exact ht'
  · exact Or.inr hc

/-- A pending producer stays pending while another call of `FlushTracesAsync` moves on. -/
theorem ProducerPending.setCall (h : s.ProducerPending) {c : CallId} (hc : s.calls c ≠ .set)
    (pc : CallPc) : (s.setCall c pc).ProducerPending := by
  rcases h with ht | ⟨c', hc'⟩
  · exact Or.inl ht
  · refine Or.inr ⟨c', ?_⟩
    have hne : c' ≠ c := by
      rintro rfl
      exact hc hc'
    rw [setCall_calls_of_ne s pc hne]
    exact hc'

/-- What is there for the loop to see: nothing is queued, the event is set, or it will be tested. -/
def Awake (s : PendingTraces) : Prop := s.queue = [] ∨ s.isSet = true ∨ s.ProducerPending

/-- The loop is on its way into `Wait`, or in it. -/
def Drowsy (s : PendingTraces) : Prop :=
  s.loop = .wait ∨ (s.loop = .exitTest ∧ s.hasDequeuedTraces = false)

/-- The invariant: the loop goes into `Wait` only where there is something to wake it up, and an
iteration that serializes a trace does not go there. -/
structure WakesUp (s : PendingTraces) : Prop where
  /-- Nothing is missed on the way into `Wait`. -/
  awake : s.Drowsy → s.Awake
  /-- The local variable is set before `SerializeTrace` is called. -/
  busy : ∀ t, s.loop = .serialize t → s.hasDequeuedTraces = true

/-- A step of a producer keeps the invariant if it keeps the loop as it is, and what the loop would
see. -/
theorem WakesUp.of_producer (h : s.WakesUp) (hloop : u.loop = s.loop)
    (hlocal : u.hasDequeuedTraces = s.hasDequeuedTraces) (hawake : s.Awake → u.Awake) :
    u.WakesUp := by
  refine ⟨fun hdrowsy => hawake (h.awake ?_), fun t ht => ?_⟩
  · unfold Drowsy at hdrowsy ⊢
    rw [hloop, hlocal] at hdrowsy
    exact hdrowsy
  · rw [hlocal]
    exact h.busy t (hloop ▸ ht)

theorem WakesUp.writeTrace (h : s.WakesUp) {t : TraceId} {a : WriteAction}
    (hu : s.writeTrace t a = some u) : u.WakesUp := by
  -- moving a call that is not pending keeps the event and the pending producers
  have hmove : ∀ pc, s.writers t ≠ .testEvent ∧ s.writers t ≠ .set → s.Awake →
      (s.setWriter t pc).Awake := by
    rintro pc hpc (hempty | hset | hpending)
    · exact Or.inl hempty
    · exact Or.inr (Or.inl hset)
    · exact Or.inr (Or.inr (hpending.setWriter hpc pc))
  cases a <;> simp only [PendingTraces.writeTrace, Option.ite_none_right_eq_some,
    Option.some.injEq] at hu
  case call =>
    obtain ⟨hpc, rfl⟩ := hu
    exact h.of_producer rfl rfl (hmove _ (by simp [hpc]))
  case seesRunning =>
    obtain ⟨⟨hpc, -⟩, rfl⟩ := hu
    exact h.of_producer rfl rfl (hmove _ (by simp [hpc]))
  case seesCompleted =>
    obtain ⟨⟨hpc, -⟩, rfl⟩ := hu
    exact h.of_producer rfl rfl (hmove _ (by simp [hpc]))
  case enqueue =>
    obtain ⟨hpc, rfl⟩ := hu
    refine h.of_producer rfl rfl fun _ => Or.inr (Or.inr (Or.inl ⟨t, Or.inl ?_⟩))
    simp
  case seesSet =>
    obtain ⟨⟨hpc, hset⟩, rfl⟩ := hu
    exact h.of_producer rfl rfl fun _ => Or.inr (Or.inl hset)
  case seesUnset =>
    obtain ⟨⟨hpc, hunset⟩, rfl⟩ := hu
    refine h.of_producer rfl rfl fun _ => Or.inr (Or.inr (Or.inl ⟨t, Or.inr ?_⟩))
    simp
  case set =>
    obtain ⟨hpc, rfl⟩ := hu
    exact h.of_producer rfl rfl fun _ => Or.inr (Or.inl rfl)
  case serialized =>
    obtain ⟨hpc, rfl⟩ := hu
    exact h.of_producer rfl rfl (hmove _ (by simp [hpc]))

theorem WakesUp.flushTraces (h : s.WakesUp) {c : CallId} {a : FlushAction}
    (hu : s.flushTraces c a = some u) : u.WakesUp := by
  have hmove : ∀ pc, s.calls c ≠ .set → s.Awake → (s.setCall c pc).Awake := by
    rintro pc hpc (hempty | hset | hpending)
    · exact Or.inl hempty
    · exact Or.inr (Or.inl hset)
    · exact Or.inr (Or.inr (hpending.setCall hpc pc))
  cases a <;> simp only [PendingTraces.flushTraces, Option.ite_none_right_eq_some,
    Option.some.injEq] at hu
  case call =>
    obtain ⟨hpc, rfl⟩ := hu
    exact h.of_producer rfl rfl (hmove _ (by simp [hpc]))
  case seesRunning =>
    obtain ⟨⟨hpc, -⟩, rfl⟩ := hu
    exact h.of_producer rfl rfl (hmove _ (by simp [hpc]))
  case seesCompleted =>
    obtain ⟨⟨hpc, -⟩, rfl⟩ := hu
    exact h.of_producer rfl rfl (hmove _ (by simp [hpc]))
  case enqueue =>
    obtain ⟨hpc, rfl⟩ := hu
    refine h.of_producer rfl rfl fun _ => Or.inr (Or.inr (Or.inr ⟨c, ?_⟩))
    simp
  case set =>
    obtain ⟨hpc, rfl⟩ := hu
    exact h.of_producer rfl rfl fun _ => Or.inr (Or.inl rfl)
  case resumes =>
    obtain ⟨⟨hpc, -⟩, rfl⟩ := hu
    exact h.of_producer rfl rfl (hmove _ (by simp [hpc]))
  case returns =>
    obtain ⟨hpc, rfl⟩ := hu
    exact h.of_producer rfl rfl (hmove _ (by simp [hpc]))

theorem WakesUp.flushAndClose (h : s.WakesUp) {a : CloseAction}
    (hu : s.flushAndClose a = some u) : u.WakesUp := by
  cases a <;> simp only [PendingTraces.flushAndClose, Option.ite_none_right_eq_some,
    Option.some.injEq] at hu
  case exit =>
    obtain ⟨-, rfl⟩ := hu
    exact h.of_producer rfl rfl id
  case set =>
    obtain ⟨-, rfl⟩ := hu
    exact h.of_producer rfl rfl fun _ => Or.inr (Or.inl rfl)
  case flush =>
    obtain ⟨-, rfl⟩ := hu
    exact h.of_producer rfl rfl id
  case returns =>
    obtain ⟨-, rfl⟩ := hu
    exact h.of_producer rfl rfl id

theorem WakesUp.serializeTracesLoop (h : s.WakesUp) {a : LoopAction}
    (hu : s.serializeTracesLoop a = some u) : u.WakesUp := by
  -- the loop is on its way into `Wait` only after it found the queue empty
  have hawayFrom : ∀ pc, pc ≠ .wait → pc ≠ .exitTest → (∀ t, pc ≠ .serialize t) → u.loop = pc →
      u.WakesUp := by
    intro pc hwait hexit hserialize hpc
    refine ⟨?_, fun t ht => absurd (hpc.symm.trans ht) (hserialize t)⟩
    rintro (hloop | ⟨hloop, -⟩)
    · exact absurd (hpc.symm.trans hloop) hwait
    · exact absurd (hpc.symm.trans hloop) hexit
  cases a <;> simp only [PendingTraces.serializeTracesLoop, Option.ite_none_right_eq_some,
    Option.some.injEq] at hu
  case dequeueTrace t =>
    obtain ⟨-, rfl⟩ := hu
    refine ⟨?_, fun _ _ => rfl⟩
    rintro (hloop | ⟨hloop, -⟩) <;> cases hloop
  case dequeueCallback c =>
    obtain ⟨-, rfl⟩ := hu
    exact hawayFrom _ (by simp) (by simp) (by simp) rfl
  case dequeueNothing =>
    obtain ⟨⟨-, hempty⟩, rfl⟩ := hu
    exact ⟨fun _ => Or.inl hempty, fun t ht => by cases ht⟩
  case callback =>
    split at hu
    · simp only [Option.some.injEq] at hu
      subst hu
      exact hawayFrom _ (by simp) (by simp) (by simp) rfl
    · cases hu
  case serialized =>
    split at hu
    · simp only [Option.some.injEq] at hu
      subst hu
      exact hawayFrom _ (by simp) (by simp) (by simp) rfl
    · cases hu
  case threw =>
    split at hu
    · rename_i t hloop
      simp only [Option.some.injEq] at hu
      subst hu
      refine ⟨?_, fun t ht => by cases ht⟩
      -- the exception came from `SerializeTrace`, so the loop sleeps and dequeues again
      rintro (hwait | ⟨-, hidle⟩)
      · cases hwait
      · exact absurd (h.busy t hloop) (by simp [show s.hasDequeuedTraces = false from hidle])
    · cases hu
  case exit =>
    obtain ⟨-, rfl⟩ := hu
    exact hawayFrom _ (by simp) (by simp) (by simp) rfl
  case stay =>
    obtain ⟨⟨hloop, -⟩, rfl⟩ := hu
    by_cases hdequeued : s.hasDequeuedTraces = true
    · exact hawayFrom .sleep (by simp) (by simp) (by simp) (by simp [hdequeued])
    · have hawake := h.awake (Or.inr ⟨hloop, by simpa using hdequeued⟩)
      refine ⟨fun _ => hawake, fun t ht => ?_⟩
      simp [hdequeued] at ht
  case wakeUp =>
    obtain ⟨-, rfl⟩ := hu
    exact hawayFrom _ (by simp) (by simp) (by simp) rfl
  case waitReturns =>
    obtain ⟨-, rfl⟩ := hu
    exact hawayFrom _ (by simp) (by simp) (by simp) rfl
  case reset =>
    obtain ⟨-, rfl⟩ := hu
    exact hawayFrom _ (by simp) (by simp) (by simp) rfl
  case complete =>
    obtain ⟨-, rfl⟩ := hu
    exact hawayFrom _ (by simp) (by simp) (by simp) rfl

/-- **The step**: every step keeps the invariant. -/
theorem WakesUp.step (h : s.WakesUp) {e : QueueEvent} (hu : s.step e = some u) : u.WakesUp := by
  cases e with
  | write t a => exact h.writeTrace hu
  | flush c a => exact h.flushTraces hu
  | close a => exact h.flushAndClose hu
  | loop a => exact h.serializeTracesLoop hu
  | flushLoopSeesRunning =>
      simp only [PendingTraces.step, Option.ite_none_right_eq_some, Option.some.injEq] at hu
      obtain ⟨-, rfl⟩ := hu
      exact h

/-- The invariant holds in every reachable state. -/
theorem wakesUp (hs : system.Reachable s) : s.WakesUp := by
  refine hs.invariant (fun s h₀ => ?_) fun s e u h hu => h.step hu
  obtain rfl : s = {} := h₀
  exact ⟨fun _ => Or.inl rfl, fun t ht => by cases ht⟩

/-- **No wake-up is lost**: whenever the serialization thread is blocked in `Wait`, the queue is
empty or a producer has enqueued and not yet made its test and `Set`. -/
theorem no_wakeUp_lost (hs : system.Reachable s) (hwait : s.loop = .wait)
    (hblocked : s.isSet = false) : s.queue = [] ∨ s.ProducerPending := by
  rcases (wakesUp hs).awake (Or.inl hwait) with hempty | hset | hpending
  · exact Or.inl hempty
  · rw [hblocked] at hset
    cases hset
  · exact Or.inr hpending

/-- A run into `Wait`: the first trace throws in `SerializeTrace`, the loop comes round again and
blocks, and a second trace is enqueued while it does. -/
def blockedRun : List QueueEvent :=
  [.write 0 .call, .write 0 .seesRunning, .write 0 .enqueue, .loop (.dequeueTrace 0), .loop .threw,
    .loop .stay, .loop .wakeUp, .write 0 .seesUnset, .write 0 .set, .loop .dequeueNothing,
    .loop .stay, .loop .waitReturns, .loop .reset, .loop .dequeueNothing, .loop .stay,
    .write 1 .call, .write 1 .seesRunning, .write 1 .enqueue]

theorem no_wakeUp_lost_blockedRun :
    ∃ s, system.Reachable s ∧ s.loop = .wait ∧ s.queue = [.trace 1] ∧
      (s.queue = [] ∨ s.ProducerPending) := by
  have hrun : runOps step {} blockedRun = some ((runOps step {} blockedRun).get (by decide)) := by
    simp
  have hreachable := Lts.reachable_of_runOps hrun
  exact ⟨_, hreachable, by decide, by decide, no_wakeUp_lost hreachable (by decide) (by decide)⟩

end PendingTraces

end DdTrace.Agent
