import DdTrace.Agent.Accounting
import DdTrace.Agent.Watermarks

/-!
# The agent writer

The two halves of `AgentWriter` together: a step of `PendingTraces` and a step of `Buffers` are
taken at the same time where the one calls or ends what the other does (`SerializeTrace`,
`FlushBuffers`), and every other step is taken alone.

* `system`: the whole writer, any number of callers of `WriteTrace` and `FlushTracesAsync`, the
  serialization thread, the flush loop and `FlushAndCloseAsync`.
* `linked`: what the two halves know of each other.
* `buffers_fresh`: a run of the writer is a run of the buffers in which no trace is taken twice.

Source: `Agent/AgentWriter.cs`, `Agent/SpanBuffer.cs`.
-/

namespace DdTrace.Agent

open DdTrace.Lib

/-! ## The steps that the halves take together -/

/-- What the buffers do at the same time as a step of the queue: `none` is nothing. -/
def QueueEvent.partners : QueueEvent → List (Option BufferEvent)
  | .loop (.dequeueTrace t) => [some (.serialize .loop (.call t))]
  | .loop .serialized => [some (.serialize .loop .return)]
  | .loop .threw => [some (.serialize .loop .throw)]
  | .write t .seesCompleted => [some (.serialize (.writer t) (.call t))]
  | .write t .serialized =>
      [some (.serialize (.writer t) .return), some (.serialize (.writer t) .throw)]
  | .flush c .seesCompleted => [some (.flush (.call c) .call)]
  | .flush c .resumes => [some (.flush (.call c) .call)]
  | .flush c .returns => [some (.flush (.call c) .return)]
  | .close .flush => [some (.flush .close .call)]
  | .flushLoopSeesRunning => [some (.flush .periodic .return)]
  | _ => [none]

/-- The steps that the buffers take alone. The flush loop goes into another round only together with
its test of the serialization task, and `FlushAndCloseAsync` does not wait for its flush. -/
def BufferEvent.alone : BufferEvent → Bool
  | .serialize _ a => a.inside
  | .flush .periodic a => decide (a ≠ .return)
  | .flush (.call _) a => decide (a ≠ .call ∧ a ≠ .return)
  | .flush .close a => decide (a ≠ .call)
  | .task _ _ => true

/-- The steps that the two halves may take at the same time. -/
def together : Option QueueEvent → Option BufferEvent → Prop
  | some q, b => b ∈ q.partners
  | none, some b => b.alone = true
  | none, none => False

instance : DecidableRel together
  | some q, b => inferInstanceAs (Decidable (b ∈ q.partners))
  | none, some b => inferInstanceAs (Decidable (b.alone = true))
  | none, none => inferInstanceAs (Decidable False)

/-- The steps of the queue that begin or end a call of `SerializeTrace`. -/
def QueueEvent.serializes : QueueEvent → Bool
  | .loop (.dequeueTrace _) => true
  | .loop .serialized => true
  | .loop .threw => true
  | .write _ .seesCompleted => true
  | .write _ .serialized => true
  | _ => false

/-- The steps of the buffers that begin or end a call of `SerializeTrace`. -/
def BufferEvent.serializes : BufferEvent → Bool
  | .serialize _ a => !a.inside
  | _ => false

/-- The pairs of steps, as far as `SerializeTrace` goes. -/
inductive Together : Option QueueEvent → Option BufferEvent → Prop where
  /-- The serialization thread calls `SerializeTrace`. -/
  | dequeue (t : TraceId) :
      Together (some (.loop (.dequeueTrace t))) (some (.serialize .loop (.call t)))
  /-- `SerializeTrace` returns on the serialization thread. -/
  | serialized : Together (some (.loop .serialized)) (some (.serialize .loop .return))
  /-- `SerializeTrace` throws on the serialization thread. -/
  | threw : Together (some (.loop .threw)) (some (.serialize .loop .throw))
  /-- A caller of `WriteTrace` calls `SerializeTrace`. -/
  | direct (t : TraceId) :
      Together (some (.write t .seesCompleted)) (some (.serialize (.writer t) (.call t)))
  /-- `SerializeTrace` is over on the thread of a caller of `WriteTrace`. -/
  | directOver (t : TraceId) {a : SerializeAction} : a = .return ∨ a = .throw →
      Together (some (.write t .serialized)) (some (.serialize (.writer t) a))
  /-- No call of `SerializeTrace` begins or ends. -/
  | other {q : Option QueueEvent} {b : Option BufferEvent} :
      (∀ q' ∈ q, q'.serializes = false) → (∀ b' ∈ b, b'.serializes = false) → Together q b

/-- A step of the queue that does not begin or end `SerializeTrace` has no partner that does. -/
theorem serializes_of_partner (q : QueueEvent) :
    q.serializes = false → ∀ b ∈ q.partners, ∀ b' ∈ b, b'.serializes = false := by
  cases q with
  | write t a => cases a <;> simp [QueueEvent.serializes, QueueEvent.partners]
  | flush c a =>
      cases a <;> simp [QueueEvent.serializes, QueueEvent.partners, BufferEvent.serializes]
  | close a =>
      cases a <;> simp [QueueEvent.serializes, QueueEvent.partners, BufferEvent.serializes]
  | loop a => cases a <;> simp [QueueEvent.serializes, QueueEvent.partners]
  | flushLoopSeesRunning =>
      simp [QueueEvent.serializes, QueueEvent.partners, BufferEvent.serializes]

theorem together_cases {q : Option QueueEvent} {b : Option BufferEvent} (h : together q b) :
    Together q b := by
  cases q with
  | none =>
      cases b with
      | none => exact h.elim
      | some b =>
          refine .other (by simp) ?_
          rintro b' ⟨⟩
          cases b with
          | serialize i a =>
              have hinside : a.inside = true := h
              simp [BufferEvent.serializes, hinside]
          | flush f a => rfl
          | task k a => rfl
  | some q =>
      have hb : b ∈ q.partners := h
      by_cases hserializes : q.serializes = false
      · exact .other (by rintro q' ⟨⟩; exact hserializes) (serializes_of_partner q hserializes b hb)
      · -- the steps that begin or end `SerializeTrace`
        unfold QueueEvent.serializes at hserializes
        split at hserializes
        · obtain rfl := List.mem_singleton.mp hb
          exact .dequeue _
        · obtain rfl := List.mem_singleton.mp hb
          exact .serialized
        · obtain rfl := List.mem_singleton.mp hb
          exact .threw
        · obtain rfl := List.mem_singleton.mp hb
          exact .direct _
        · rcases List.mem_cons.mp hb with rfl | hb
          · exact .directOver _ (Or.inl rfl)
          · obtain rfl := List.mem_singleton.mp hb
            exact .directOver _ (Or.inr rfl)
        · exact absurd rfl hserializes

/-! ## What the queue does besides -/

namespace PendingTraces

variable {s u : PendingTraces}

/-- The trace of a call of `WriteTrace` that calls `SerializeTrace` itself. -/
def Direct (s : PendingTraces) (t : TraceId) : Prop :=
  t ∉ s.accepted ∧ (s.writers t = .serialize ∨ s.writers t = .returned)

/-- No call of `SerializeTrace` begins or ends. -/
structure SameSerializing (s u : PendingTraces) : Prop where
  loop : ∀ t, u.loop = .serialize t ↔ s.loop = .serialize t
  writers : ∀ t, u.writers t = .serialize ↔ s.writers t = .serialize
  dequeued : u.dequeued = s.dequeued
  direct : ∀ t, u.Direct t ↔ s.Direct t

/-- A step that leaves the calls of `WriteTrace` as they are. -/
theorem SameSerializing.of_eq (hloop : ∀ t, u.loop = .serialize t ↔ s.loop = .serialize t)
    (hdequeued : u.dequeued = s.dequeued) (hwriters : u.writers = s.writers)
    (haccepted : u.accepted = s.accepted) : SameSerializing s u := by
  refine ⟨hloop, ?_, hdequeued, ?_⟩ <;> intro t
  · rw [hwriters]
  · unfold Direct
    rw [hwriters, haccepted]

/-- A call of `WriteTrace` moves on, inside or outside of `SerializeTrace`. -/
theorem SameSerializing.of_writer {t : TraceId} {pc : WriterPc}
    (hloop : u.loop = s.loop) (hdequeued : u.dequeued = s.dequeued)
    (hwriters : u.writers = (s.setWriter t pc).writers)
    (haccepted : ∀ t' ≠ t, t' ∈ u.accepted ↔ t' ∈ s.accepted)
    (hpc : pc = .serialize ↔ s.writers t = .serialize) (hdirect : u.Direct t ↔ s.Direct t) :
    SameSerializing s u := by
  refine ⟨fun t' => by rw [hloop], fun t' => ?_, hdequeued, fun t' => ?_⟩
  · rcases eq_or_ne t' t with rfl | hne
    · rw [hwriters, setWriter_writers_self]
      exact hpc
    · rw [hwriters, setWriter_writers_of_ne s pc hne]
  · rcases eq_or_ne t' t with rfl | hne
    · exact hdirect
    · unfold Direct
      rw [hwriters, setWriter_writers_of_ne s pc hne, haccepted t' hne]

theorem not_direct_of_mem {t : TraceId} (h : t ∈ s.accepted) : ¬s.Direct t :=
  fun hdirect => hdirect.1 h

theorem sameSerializing_writeTrace (h : s.InOrder) {t : TraceId} {a : WriteAction}
    (hq : QueueEvent.serializes (.write t a) = false) (hu : s.writeTrace t a = some u) :
    SameSerializing s u := by
  -- a call that is in the test of the event or in `Set` has enqueued its trace
  have hqueued : ∀ {pc}, s.writers t = pc → pc.atEvent = true → t ∈ s.accepted := by
    rintro pc rfl hevent
    exact h.tests t hevent
  cases a <;> simp only [writeTrace, Option.ite_none_right_eq_some, Option.some.injEq] at hu
  case call =>
    obtain ⟨hpc, rfl⟩ := hu
    exact .of_writer rfl rfl rfl (fun _ _ => Iff.rfl) (by simp [hpc]) (by simp [Direct, hpc])
  case seesRunning =>
    obtain ⟨⟨hpc, -⟩, rfl⟩ := hu
    exact .of_writer rfl rfl rfl (fun _ _ => Iff.rfl) (by simp [hpc]) (by simp [Direct, hpc])
  case seesCompleted => cases hq
  case enqueue =>
    obtain ⟨hpc, rfl⟩ := hu
    refine .of_writer rfl rfl rfl (fun t' hne => ?_) (by simp [hpc]) ?_
    · simp [hne]
    · simp [Direct, hpc]
  case seesSet =>
    obtain ⟨⟨hpc, -⟩, rfl⟩ := hu
    have hmem := hqueued hpc rfl
    exact .of_writer rfl rfl rfl (fun _ _ => Iff.rfl) (by simp [hpc])
      (iff_of_false (not_direct_of_mem hmem) (not_direct_of_mem hmem))
  case seesUnset =>
    obtain ⟨⟨hpc, -⟩, rfl⟩ := hu
    have hmem := hqueued hpc rfl
    exact .of_writer rfl rfl rfl (fun _ _ => Iff.rfl) (by simp [hpc])
      (iff_of_false (not_direct_of_mem hmem) (not_direct_of_mem hmem))
  case set =>
    obtain ⟨hpc, rfl⟩ := hu
    have hmem := hqueued hpc rfl
    exact .of_writer rfl rfl rfl (fun _ _ => Iff.rfl) (by simp [hpc])
      (iff_of_false (not_direct_of_mem hmem) (not_direct_of_mem hmem))
  case serialized => cases hq

theorem sameSerializing_loop {a : LoopAction} (hq : QueueEvent.serializes (.loop a) = false)
    (hu : s.serializeTracesLoop a = some u) : SameSerializing s u := by
  cases a <;> simp only [serializeTracesLoop, Option.ite_none_right_eq_some,
    Option.some.injEq] at hu
  case dequeueTrace => cases hq
  case serialized => cases hq
  case threw => cases hq
  case callback =>
    split at hu
    · rename_i hloop
      obtain rfl := Option.some.inj hu
      exact .of_eq (by simp [hloop]) rfl rfl rfl
    · cases hu
  case dequeueCallback =>
    obtain ⟨⟨hloop, -⟩, rfl⟩ := hu
    exact .of_eq (by simp [hloop]) rfl rfl rfl
  case dequeueNothing =>
    obtain ⟨⟨hloop, -⟩, rfl⟩ := hu
    exact .of_eq (by simp [hloop]) rfl rfl rfl
  case exit =>
    obtain ⟨⟨hloop, -⟩, rfl⟩ := hu
    exact .of_eq (by simp [hloop]) rfl rfl rfl
  case stay =>
    obtain ⟨⟨hloop, -⟩, rfl⟩ := hu
    refine .of_eq (fun t => ?_) rfl rfl rfl
    cases hdequeued : s.hasDequeuedTraces <;> simp [hloop]
  case wakeUp =>
    obtain ⟨hloop, rfl⟩ := hu
    exact .of_eq (by simp [hloop]) rfl rfl rfl
  case waitReturns =>
    obtain ⟨⟨hloop, -⟩, rfl⟩ := hu
    exact .of_eq (by simp [hloop]) rfl rfl rfl
  case reset =>
    obtain ⟨hloop, rfl⟩ := hu
    exact .of_eq (by simp [hloop]) rfl rfl rfl
  case complete =>
    obtain ⟨hloop, rfl⟩ := hu
    exact .of_eq (by simp [hloop]) rfl rfl rfl

/-- A step of the queue that does not begin or end a call of `SerializeTrace`. -/
theorem sameSerializing (h : s.InOrder) {q : QueueEvent} (hq : q.serializes = false)
    (hu : s.step q = some u) : SameSerializing s u := by
  cases q with
  | write t a => exact sameSerializing_writeTrace h hq hu
  | loop a => exact sameSerializing_loop hq hu
  | flush c a =>
      cases a <;> simp only [step, flushTraces, Option.ite_none_right_eq_some,
        Option.some.injEq] at hu <;>
      · obtain ⟨-, rfl⟩ := hu
        exact .of_eq (fun _ => Iff.rfl) rfl rfl rfl
  | close a =>
      cases a <;> simp only [step, flushAndClose, Option.ite_none_right_eq_some,
        Option.some.injEq] at hu <;>
      · obtain ⟨-, rfl⟩ := hu
        exact .of_eq (fun _ => Iff.rfl) rfl rfl rfl
  | flushLoopSeesRunning =>
      simp only [step, Option.ite_none_right_eq_some, Option.some.injEq] at hu
      obtain ⟨-, rfl⟩ := hu
      exact .of_eq (fun _ => Iff.rfl) rfl rfl rfl

end PendingTraces

/-! ## The two halves together -/

namespace AgentWriter

variable {maxBufferSize : Nat} {s u : PendingTraces × Buffers}

/-- The agent writer as a transition system. -/
def system (maxBufferSize : Nat) :
    Lts (PendingTraces × Buffers) (Option QueueEvent × Option BufferEvent) :=
  PendingTraces.system.sync (Buffers.system maxBufferSize) together

/-- What the two halves know of each other. -/
structure Linked (s : PendingTraces × Buffers) : Prop where
  /-- The serialization thread is in `SerializeTrace` with the trace that it dequeued. -/
  loop : ∀ t, s.1.loop = .serialize t ↔ s.2.running .loop = some t
  /-- A caller of `WriteTrace` is in `SerializeTrace` with its own trace. -/
  writer : ∀ t t', s.2.running (.writer t) = some t' ↔ t' = t ∧ s.1.writers t = .serialize
  /-- `SerializeTrace` is called with the dequeued traces and with those of direct calls. -/
  taken : ∀ t, t ∈ s.2.books.taken ↔ t ∈ s.1.dequeued ∨ s.1.Direct t

/-- A step that begins or ends no call of `SerializeTrace`. -/
theorem Linked.congr (h : Linked s) (hqueue : s.1.SameSerializing u.1)
    (hrunning : u.2.running = s.2.running) (htaken : u.2.books.taken = s.2.books.taken) :
    Linked u := by
  constructor
  · intro t
    rw [hqueue.loop, hrunning]
    exact h.loop t
  · intro t t'
    rw [hrunning, hqueue.writers]
    exact h.writer t t'
  · intro t
    rw [htaken, hqueue.dequeued, hqueue.direct]
    exact h.taken t

/-- Two steps at the same time that begin or end no call of `SerializeTrace`. -/
theorem Linked.other (h : Linked s) (hs : s.1.InOrder) {q : Option QueueEvent}
    {b : Option BufferEvent} (hq : ∀ q' ∈ q, q'.serializes = false)
    (hb : ∀ b' ∈ b, b'.serializes = false) (hqueue : PendingTraces.system.StepOption s.1 q u.1)
    (hbuffers : (Buffers.system maxBufferSize).StepOption s.2 b u.2) : Linked u := by
  have hsame : s.1.SameSerializing u.1 := by
    cases q with
    | none =>
        rw [Lts.stepOption_none.mp hqueue]
        exact .of_eq (fun _ => Iff.rfl) rfl rfl rfl
    | some q => exact PendingTraces.sameSerializing hs (hq q rfl) (Lts.stepOption_some.mp hqueue)
  have hrunning : u.2.running = s.2.running ∧ u.2.books.taken = s.2.books.taken := by
    cases b with
    | none =>
        rw [Lts.stepOption_none.mp hbuffers]
        exact ⟨rfl, rfl⟩
    | some b =>
        have hstep := Lts.stepOption_some.mp hbuffers
        cases b with
        | serialize i a =>
            have hinside : a.inside = true := by simpa [BufferEvent.serializes] using hb _ rfl
            exact (Buffers.serializeTrace_effect hstep).running_of_inside hinside
        | flush f a =>
            obtain ⟨-, hhands, hbooks, -⟩ := (Buffers.flushBuffers_effect hstep).frame
            exact ⟨by simp only [Buffers.running, hhands], by rw [hbooks]⟩
        | task k a =>
            obtain ⟨hhands, htaken, -⟩ := (Buffers.internalBufferFlush_effect hstep).frame
            exact ⟨by simp only [Buffers.running, hhands], htaken⟩
  exact h.congr hsame hrunning.1 hrunning.2

/-- The serialization thread dequeues a trace and calls `SerializeTrace`. -/
theorem Linked.dequeue (h : Linked s) {t : TraceId}
    (hqueue : s.1.serializeTracesLoop (.dequeueTrace t) = some u.1)
    (hbuffers : Buffers.SerializeEffect maxBufferSize s.2 .loop (.call t) u.2) : Linked u := by
  simp only [PendingTraces.serializeTracesLoop, Option.ite_none_right_eq_some,
    Option.some.injEq] at hqueue
  obtain ⟨-, hu⟩ := hqueue
  obtain ⟨-, hrunning, htaken⟩ := hbuffers.running_of_call
  constructor
  · intro t'
    rw [hrunning, Function.update_self, ← hu]
    simp
  · intro t' t''
    rw [hrunning, Function.update_of_ne (by simp), ← hu]
    exact h.writer t' t''
  · intro t'
    rw [htaken, ← hu, List.mem_append, h.taken t', List.mem_append, or_right_comm]
    exact Iff.rfl

/-- `SerializeTrace` is over on the serialization thread. -/
theorem Linked.loopOver (h : Linked s) {a : LoopAction} {b : SerializeAction}
    (ha : a = .serialized ∨ a = .threw) (hb : b = .return ∨ b = .throw)
    (hqueue : s.1.serializeTracesLoop a = some u.1)
    (hbuffers : Buffers.SerializeEffect maxBufferSize s.2 .loop b u.2) : Linked u := by
  obtain ⟨hrunning, htaken⟩ := hbuffers.running_of_end hb
  obtain ⟨hloop, hwriters, haccepted, hdequeued⟩ : (∀ t, u.1.loop ≠ .serialize t) ∧
      u.1.writers = s.1.writers ∧ u.1.accepted = s.1.accepted ∧ u.1.dequeued = s.1.dequeued := by
    rcases ha with rfl | rfl <;> simp only [PendingTraces.serializeTracesLoop] at hqueue <;>
    · split at hqueue
      · rw [Option.some.injEq] at hqueue
        rw [← hqueue]
        exact ⟨by simp, rfl, rfl, rfl⟩
      · cases hqueue
  constructor
  · intro t
    rw [hrunning, Function.update_self]
    simp [hloop t]
  · intro t t'
    rw [hrunning, Function.update_of_ne (by simp), hwriters]
    exact h.writer t t'
  · intro t
    rw [htaken, hdequeued]
    unfold PendingTraces.Direct
    rw [hwriters, haccepted]
    exact h.taken t

/-- A caller of `WriteTrace` calls `SerializeTrace`. -/
theorem Linked.direct (h : Linked s) (hs : s.1.InOrder) {t : TraceId}
    (hqueue : s.1.writeTrace t .seesCompleted = some u.1)
    (hbuffers : Buffers.SerializeEffect maxBufferSize s.2 (.writer t) (.call t) u.2) :
    Linked u := by
  simp only [PendingTraces.writeTrace, Option.ite_none_right_eq_some,
    Option.some.injEq] at hqueue
  obtain ⟨⟨hpc, -⟩, hu⟩ := hqueue
  obtain ⟨-, hrunning, htaken⟩ := hbuffers.running_of_call
  constructor
  · intro t'
    rw [hrunning, Function.update_of_ne (by simp), ← hu]
    exact h.loop t'
  · intro t' t''
    rcases eq_or_ne t' t with rfl | hne
    · rw [hrunning, Function.update_self, ← hu, PendingTraces.setWriter_writers_self]
      simp [eq_comm]
    · rw [hrunning, Function.update_of_ne (by simp [hne]), ← hu,
        PendingTraces.setWriter_writers_of_ne _ _ hne]
      exact h.writer t' t''
  · intro t'
    rw [htaken, ← hu, List.mem_append, h.taken t', List.mem_singleton]
    unfold PendingTraces.Direct
    rcases eq_or_ne t' t with rfl | hne
    · have hnew : t' ∉ s.1.accepted := by
        intro hmem
        have := hs.writers t' hmem
        rw [hpc] at this
        cases this
      simp only [PendingTraces.setWriter_writers_self, or_true, true_iff]
      exact Or.inr ⟨hnew, by simp⟩
    · rw [PendingTraces.setWriter_writers_of_ne _ _ hne]
      simp [hne, PendingTraces.setWriter]

/-- `SerializeTrace` is over on the thread of a caller of `WriteTrace`. -/
theorem Linked.directOver (h : Linked s) {t : TraceId} {a : SerializeAction}
    (ha : a = .return ∨ a = .throw) (hqueue : s.1.writeTrace t .serialized = some u.1)
    (hbuffers : Buffers.SerializeEffect maxBufferSize s.2 (.writer t) a u.2) : Linked u := by
  simp only [PendingTraces.writeTrace, Option.ite_none_right_eq_some,
    Option.some.injEq] at hqueue
  obtain ⟨hpc, hu⟩ := hqueue
  obtain ⟨hrunning, htaken⟩ := hbuffers.running_of_end ha
  constructor
  · intro t'
    rw [hrunning, Function.update_of_ne (by simp), ← hu]
    exact h.loop t'
  · intro t' t''
    rcases eq_or_ne t' t with rfl | hne
    · rw [hrunning, Function.update_self, ← hu, PendingTraces.setWriter_writers_self]
      simp
    · rw [hrunning, Function.update_of_ne (by simp [hne]), ← hu,
        PendingTraces.setWriter_writers_of_ne _ _ hne]
      exact h.writer t' t''
  · intro t'
    rw [htaken, ← hu, h.taken t']
    unfold PendingTraces.Direct
    rcases eq_or_ne t' t with rfl | hne
    · rw [PendingTraces.setWriter_writers_self, hpc]
      simp [PendingTraces.setWriter]
    · rw [PendingTraces.setWriter_writers_of_ne _ _ hne]
      exact Iff.rfl

/-- **The step**: every step keeps the halves linked. -/
theorem Linked.step (h : Linked s) (hs : s.1.InOrder)
    {a : Option QueueEvent × Option BufferEvent} (hu : (system maxBufferSize).Step s a u) :
    Linked u := by
  obtain ⟨htogether, hqueue, hbuffers⟩ := hu
  obtain ⟨q, b⟩ := a
  have heffect : ∀ {i a}, b = some (.serialize i a) →
      Buffers.SerializeEffect maxBufferSize s.2 i a u.2 := by
    rintro i a rfl
    exact Buffers.serializeTrace_effect (Lts.stepOption_some.mp hbuffers)
  cases together_cases htogether with
  | dequeue t => exact h.dequeue (Lts.stepOption_some.mp hqueue) (heffect rfl)
  | serialized =>
      exact h.loopOver (Or.inl rfl) (Or.inl rfl) (Lts.stepOption_some.mp hqueue) (heffect rfl)
  | threw =>
      exact h.loopOver (Or.inr rfl) (Or.inr rfl) (Lts.stepOption_some.mp hqueue) (heffect rfl)
  | direct t => exact h.direct hs (Lts.stepOption_some.mp hqueue) (heffect rfl)
  | directOver t ha => exact h.directOver ha (Lts.stepOption_some.mp hqueue) (heffect rfl)
  | other hq hb => exact h.other hs hq hb hqueue hbuffers

/-- The halves are linked in every reachable state. -/
theorem linked (hs : (system maxBufferSize).Reachable s) : Linked s := by
  refine hs.invariant_of_reachable (I := Linked) ?_ fun s a u hr h hu =>
    h.step (PendingTraces.inOrder hr.left_of_sync) hu
  rintro ⟨q, b⟩ ⟨h₁, h₂⟩
  obtain rfl : q = {} := h₁
  obtain rfl : b = {} := h₂
  constructor <;> simp [Buffers.running, PendingTraces.Direct]

/-- No trace is taken twice: the serialization thread dequeues a trace once, and a direct call has a
trace that is not enqueued. -/
theorem fresh (hs : (system maxBufferSize).Reachable s) {q : Option QueueEvent} {b : BufferEvent}
    (hu : (system maxBufferSize).Step s (q, some b) u) : s.2.Fresh b := by
  obtain ⟨htogether, hqueue, -⟩ := hu
  have horder := PendingTraces.inOrder hs.left_of_sync
  rintro h t rfl htaken
  cases together_cases htogether with
  | dequeue =>
      have hstep : s.1.serializeTracesLoop (.dequeueTrace t) = some u.1 :=
        Lts.stepOption_some.mp hqueue
      simp only [PendingTraces.serializeTracesLoop, Option.ite_none_right_eq_some] at hstep
      obtain ⟨⟨-, hhead⟩, -⟩ := hstep
      obtain ⟨haccepted, hdequeued⟩ := horder.head hhead
      rcases ((linked hs).taken t).mp htaken with hmem | hdirect
      · exact hdequeued hmem
      · exact hdirect.1 haccepted
  | direct =>
      have hstep : s.1.writeTrace t .seesCompleted = some u.1 := Lts.stepOption_some.mp hqueue
      simp only [PendingTraces.writeTrace, Option.ite_none_right_eq_some] at hstep
      obtain ⟨⟨hpc, -⟩, -⟩ := hstep
      rcases ((linked hs).taken t).mp htaken with hmem | hdirect
      · have haccepted : t ∈ s.1.accepted := by
          rw [horder.accepted]
          exact List.mem_append_left _ hmem
        have := horder.writers t haccepted
        rw [hpc] at this
        cases this
      · simp [PendingTraces.Direct, hpc] at hdirect
  | directOver _ ha => rcases ha with ha | ha <;> cases ha
  | other _ hb => exact absurd (hb _ rfl) (by simp [BufferEvent.serializes, SerializeAction.inside])

/-- **The buffers of the writer**: their half of a run is a run in which no trace is taken twice. -/
theorem buffers_fresh {P : PendingTraces × Buffers → Option QueueEvent × Option BufferEvent → Prop}
    {Q : Buffers → BufferEvent → Prop} (hs : ((system maxBufferSize).restrict P).Reachable s)
    (hPQ : ∀ s q b, P s (q, some b) → Q s.2 b) :
    ((Buffers.system maxBufferSize).restrict fun s e => s.Fresh e ∧ Q s e).Reachable s.2 :=
  hs.right_of_restrict_sync fun _ _ _ _ hr _ hstep =>
    ⟨fresh hr.of_restrict hstep.1, hPQ _ _ _ hstep.2⟩

end AgentWriter

end DdTrace.Agent
