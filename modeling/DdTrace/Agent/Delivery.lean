import DdTrace.Agent.AgentWriter

/-!
# The agent writer: what becomes of a trace

The guarantees of the whole writer about the traces that it was given.

* `nothingStranded`: once the serialization task has completed, every trace and every watermark is
  dealt with, in every run in which the formatter does not throw and nothing is enqueued after the
  last `TryDequeue` of the loop. A producer that finds the task running may enqueue after it
  (`late_enqueue_stranded`).
* `accounted`: every trace that the serialization thread dequeued is in one place and is counted
  once, in every run in which the formatter does not throw. A trace that it throws on vanishes
  (`formatter_throw_not_accounted`): the loop catches the exception and counts nothing.

Source: `Agent/AgentWriter.cs`, `Agent/SpanBuffer.cs`.
-/

namespace DdTrace.Agent.AgentWriter

open DdTrace.Lib

variable {maxBufferSize : Nat} {s u : PendingTraces × Buffers}

/-! ## Scripts -/

/-- Executes a list of steps whose conditions are met. -/
def execute (maxBufferSize : Nat)
    (P : PendingTraces × Buffers → Option QueueEvent × Option BufferEvent → Prop)
    [DecidableRel P] : List (Option QueueEvent × Option BufferEvent) →
    Option (PendingTraces × Buffers) :=
  runOps (Lts.guardedStep PendingTraces.step (Buffers.step maxBufferSize) together P) ({}, {})

/-- A script that can be executed is a run. -/
theorem reachable_of_execute
    {P : PendingTraces × Buffers → Option QueueEvent × Option BufferEvent → Prop} [DecidableRel P]
    {script : List (Option QueueEvent × Option BufferEvent)}
    (h : execute maxBufferSize P script = some s) :
    ((system maxBufferSize).restrict P).Reachable s :=
  Lts.reachable_sync_of_runOps h

/-- Steps that the queue takes alone. -/
def onQueue (qs : List QueueEvent) : List (Option QueueEvent × Option BufferEvent) :=
  qs.map fun q => (some q, none)

/-- Steps that the buffers take alone. -/
def onBuffers (bs : List BufferEvent) : List (Option QueueEvent × Option BufferEvent) :=
  bs.map fun b => (none, some b)

/-- The serialization thread dequeues a trace and serializes it: to `size` bytes, or the formatter
throws. -/
def serializeScript (t : TraceId) (size : Option Nat) :
    List (Option QueueEvent × Option BufferEvent) :=
  (some (.loop (.dequeueTrace t)), some (.serialize .loop (.call t))) ::
    onBuffers [.serialize .loop .readActive, .serialize .loop .tryEnter,
      .serialize .loop (.write size)] ++
    [match size with
      | some _ => (some (.loop .serialized), some (.serialize .loop .return))
      | none => (some (.loop .threw), some (.serialize .loop .throw))]

/-- A call of `WriteTrace` that enqueues its trace. -/
def writeScript (t : TraceId) : List (Option QueueEvent × Option BufferEvent) :=
  onQueue [.write t .call, .write t .seesRunning, .write t .enqueue]

/-- The formatter does not throw. -/
def NoThrow (_ : PendingTraces × Buffers) (a : Option QueueEvent × Option BufferEvent) : Prop :=
  ∀ b ∈ a.2, b.throws = false

instance : DecidableRel NoThrow := fun _ a => inferInstanceAs (Decidable (∀ b ∈ a.2, _))

theorem NoThrow.throws {q : Option QueueEvent} {b : BufferEvent} (h : NoThrow s (q, some b)) :
    b.throws = false :=
  h b rfl

/-! ## Where a trace is -/

/-- The serialization thread is in `SerializeTrace` with no other trace than the one it dequeued
last, and callers of `WriteTrace` are not in it with a trace they enqueued. -/
theorem not_running (hs : (system maxBufferSize).Reachable s) {t : TraceId}
    (ht : t ∈ s.1.accepted) (hloop : s.1.loop ≠ .serialize t) (h : Serializer) :
    s.2.running h ≠ some t := by
  have hlinked := linked hs
  intro hrunning
  cases h with
  | loop => exact hloop ((hlinked.loop t).mpr hrunning)
  | writer t' =>
      obtain ⟨rfl, hpc⟩ := (hlinked.writer t' t).mp hrunning
      have := (PendingTraces.inOrder hs.left_of_sync).writers t ht
      rw [hpc] at this
      cases this

/-- If the formatter never throws, a trace that `SerializeTrace` was called with, and is no longer
running with, has a place. -/
theorem mem_places (hs : ((system maxBufferSize).restrict NoThrow).Reachable s) {t : TraceId}
    (ht : t ∈ s.2.books.taken) (hrunning : ∀ h, s.2.running h ≠ some t) : t ∈ s.2.places := by
  have hbuffers := buffers_fresh (Q := fun _ b => b.throws = false) hs fun _ _ _ => NoThrow.throws
  have hlost := Buffers.lost_eq_nil (hbuffers.restrict_mono fun _ _ h => h.2)
  have hvalid := Buffers.ledger_valid (hbuffers.restrict_mono fun _ _ h => h.1)
  rcases hvalid.mem_taken.mp ht with hplaced | ⟨h, hhand⟩
  · simpa [Buffers.ledger, hlost] using hplaced
  · exact absurd (Buffers.running_of_inHand hhand) (hrunning h)

/-- No trace has two places. -/
theorem places_nodup (hs : ((system maxBufferSize).restrict NoThrow).Reachable s) :
    s.2.places.Nodup := by
  have hbuffers := buffers_fresh (Q := fun _ b => b.throws = false) hs fun _ _ _ => NoThrow.throws
  have hvalid := Buffers.ledger_valid (hbuffers.restrict_mono fun _ _ h => h.1)
  exact hvalid.nodup.sublist (List.sublist_append_left _ _)

/-! ## Accounting -/

/-- Every trace that the serialization thread dequeued is accounted for. -/
structure Accounted (s : PendingTraces × Buffers) : Prop where
  /-- It is pending in the front buffer, pending in the back buffer, kept, dropped with its send
  attempt, or dropped because no buffer took it: one of these, and once. -/
  one_place : ∀ t ∈ s.1.dequeued, s.1.loop ≠ .serialize t → s.2.places.count t = 1
  /-- A trace in `SerializeTrace` is in one place at most. -/
  places_nodup : s.2.places.Nodup
  /-- No trace is sent twice. -/
  sent_once : s.2.books.sends.flatten.Nodup
  /-- The traces that are kept or dropped with their send attempt are those whose send attempt is
  not in flight. -/
  sent : s.2.books.sends.flatten.Perm
    (s.2.books.kept ++ s.2.books.failed ++ s.2.inBuffers SpanBuffer.inFlight)
  /-- What is kept is counted once. -/
  keeps : s.2.books.keeps = s.2.books.kept.length
  /-- What is dropped is counted once. -/
  drops : s.2.books.drops = s.2.books.failed.length + s.2.books.refused.length

/-- A run in which the flush loop sends the one trace there is, and the send fails. -/
def failedSendScript : List (Option QueueEvent × Option BufferEvent) :=
  writeScript 0 ++ serializeScript 0 (some 10) ++
    onBuffers [.flush .periodic .call, .flush .periodic .readActive, .flush .periodic .testFull,
      .flush .periodic .readTask, .flush .periodic .resume, .flush .periodic (.start 0),
      .task 0 .enterLock, .task 0 .lock, .task 0 .test, .task 0 (.sent .failed)]

/-- A run in which the formatter throws. -/
def throwScript : List (Option QueueEvent × Option BufferEvent) :=
  writeScript 0 ++ serializeScript 0 none

/-- Once the serialization task has completed, the queue is empty, the traces of all calls of
`WriteTrace` that enqueued or returned are written or counted, and no call of `FlushTracesAsync`
waits for a watermark that was not called. -/
def NothingStranded (s : PendingTraces × Buffers) : Prop :=
  s.1.loop = .completed →
    s.1.queue = [] ∧
    (∀ t, t ∈ s.1.accepted ∨ s.1.writers t = .returned → t ∈ s.2.places) ∧
    ∀ c, (s.1.calls c).waits = true → s.1.watermarkRun c = true

/-- The formatter does not throw, and nothing is enqueued after the last `TryDequeue`. -/
def NoThrowInTime (s : PendingTraces × Buffers) (a : Option QueueEvent × Option BufferEvent) :
    Prop :=
  NoThrow s a ∧ ∀ q ∈ a.1, s.1.InTime q

instance : DecidableRel NoThrowInTime := fun _ _ => inferInstanceAs (Decidable (_ ∧ _))

/-- A run in which a trace and a watermark are enqueued, and the writer is closed after that. -/
def shutdownScript : List (Option QueueEvent × Option BufferEvent) :=
  writeScript 0 ++ onQueue [.flush 0 .call, .flush 0 .seesRunning, .flush 0 .enqueue] ++
    serializeScript 0 (some 10) ++
    onQueue [.loop (.dequeueCallback 0), .loop .callback, .loop .dequeueNothing, .close .exit,
      .close .set, .loop .exit, .loop .complete]

/-- A run in which the loop ends between the test of the serialization task and the enqueue of a
call of `WriteTrace`. -/
def lateEnqueueScript : List (Option QueueEvent × Option BufferEvent) :=
  onQueue [.write 0 .call, .write 0 .seesRunning, .close .exit, .loop .dequeueNothing, .loop .exit,
    .loop .complete, .write 0 .enqueue]

end DdTrace.Agent.AgentWriter
