import Mathlib.Data.List.Nodup
import DdTrace.Agent.PendingTraces

/-!
# The agent writer: the order of the queue

What the queue of pending traces keeps in order, in every run.

* `InOrder`: traces are dequeued in the order they were enqueued in, each once, and the watermark of
  a call of `FlushTracesAsync` is behind all traces that were enqueued when the call began.
* `inOrder`: it holds in every reachable state.
* `drained`: where no producer enqueues after the last `TryDequeue` of the loop (`InTime`), the loop
  leaves an empty queue.

Source: `Agent/AgentWriter.cs`, `WriteTrace`, `FlushTracesAsync`, `WriteWatermark`,
`SerializeTracesLoop`.
-/

namespace DdTrace.Agent

open DdTrace.Lib

/-- The trace of a work item. -/
def WorkItem.trace? : WorkItem → Option TraceId
  | .trace t => some t
  | .callback _ => none

/-- The call of `WriteTrace` may have enqueued its trace. -/
def WriterPc.mayHaveEnqueued : WriterPc → Bool
  | .testEvent => true
  | .set => true
  | .returned => true
  | _ => false

/-- The call of `WriteTrace` is about to test or to set the event. -/
def WriterPc.atEvent : WriterPc → Bool
  | .testEvent => true
  | .set => true
  | _ => false

/-- The call of `FlushTracesAsync` waits for its watermark. -/
def CallPc.waits : CallPc → Bool
  | .set => true
  | .await => true
  | _ => false

/-- The call of `FlushTracesAsync` may have enqueued its watermark. -/
def CallPc.mayHaveEnqueued : CallPc → Bool
  | .set => true
  | .await => true
  | .flush => true
  | .returned => true
  | _ => false

/-- The call of `FlushTracesAsync` is past its watermark. -/
def CallPc.resumed : CallPc → Bool
  | .flush => true
  | .returned => true
  | _ => false

/-- The serialization thread has no work item in hand. -/
def LoopPc.emptyHanded : LoopPc → Bool
  | .callback _ => false
  | .serialize _ => false
  | _ => true

/-- The step puts a work item into the queue. -/
def QueueEvent.enqueues : QueueEvent → Bool
  | .write _ .enqueue => true
  | .flush _ .enqueue => true
  | _ => false

namespace PendingTraces

variable {s u : PendingTraces}

/-- The trace that the serialization thread is in `SerializeTrace` with. -/
def inLoop (s : PendingTraces) : List TraceId :=
  match s.loop with
  | .serialize t => [t]
  | _ => []

/-- A watermark is in the queue, being called, or called. -/
def Watermarked (s : PendingTraces) (c : CallId) : Prop :=
  .callback c ∈ s.queue ∨ s.loop = .callback c ∨ s.watermarkRun c = true

/-- The invariant of the queue. -/
structure InOrder (s : PendingTraces) : Prop where
  /-- Traces leave the queue in order. -/
  accepted : s.accepted = s.dequeued ++ s.queue.filterMap WorkItem.trace?
  /-- Traces are serialized one after the other. -/
  dequeued : s.dequeued = s.processed ++ s.inLoop
  /-- A trace is enqueued once. -/
  nodup : s.accepted.Nodup
  /-- A trace is enqueued by its own call of `WriteTrace`. -/
  writers : ∀ t ∈ s.accepted, (s.writers t).mayHaveEnqueued = true
  /-- A call of `WriteTrace` that is at its test of the event or its `Set` has enqueued its trace. -/
  tests : ∀ t, (s.writers t).atEvent = true → t ∈ s.accepted
  /-- What a call of `FlushTracesAsync` found enqueued is enqueued. -/
  before : ∀ c, s.before c ⊆ s.accepted
  /-- A watermark is enqueued by its own call. -/
  calls : ∀ c, s.Watermarked c → (s.calls c).mayHaveEnqueued = true
  /-- The watermark of a call that waits for it is not lost. -/
  waits : ∀ c, (s.calls c).waits = true → s.Watermarked c
  /-- In the queue, the watermark of a call is behind the traces that the call found enqueued. -/
  queued : ∀ (c : CallId) (i : Nat), s.queue[i]? = some (.callback c) →
    s.before c ⊆ s.dequeued ++ (s.queue.take i).filterMap WorkItem.trace?
  /-- When a watermark is called, these traces have been through `SerializeTrace`. -/
  called : ∀ c, s.loop = .callback c ∨ s.watermarkRun c = true → s.before c ⊆ s.processed
  /-- A call goes on after its watermark was called, or because the loop is gone. -/
  resumed : ∀ c, (s.calls c).resumed = true → s.watermarkRun c = true ∨ s.loop = .completed

/-- A step that leaves the queue and the loop as they are. -/
theorem InOrder.setControl (h : s.InOrder) {writers : TraceId → WriterPc}
    {calls : CallId → CallPc} {isSet processExit : Bool} {closing : ClosePc}
    (hwriters : ∀ t, (s.writers t).mayHaveEnqueued = true → (writers t).mayHaveEnqueued = true)
    (htests : ∀ t, (writers t).atEvent = true → (s.writers t).atEvent = true)
    (hcalls : ∀ c, (s.calls c).mayHaveEnqueued = true → (calls c).mayHaveEnqueued = true)
    (hwaits : ∀ c, (calls c).waits = true → (s.calls c).waits = true)
    (hresumed : ∀ c, (calls c).resumed = true → s.watermarkRun c = true ∨ s.loop = .completed) :
    InOrder { s with
      writers := writers, calls := calls, isSet := isSet, processExit := processExit
      closing := closing } where
  accepted := h.accepted
  dequeued := h.dequeued
  nodup := h.nodup
  writers t ht := hwriters t (h.writers t ht)
  tests t ht := h.tests t (htests t ht)
  before := h.before
  calls c hc := hcalls c (h.calls c hc)
  waits c hc := h.waits c (hwaits c hc)
  queued := h.queued
  called := h.called
  resumed := hresumed

/-- A call of `WriteTrace` moves on. -/
theorem InOrder.setWriter (h : s.InOrder) {t : TraceId} {pc : WriterPc} (isSet : Bool)
    (hpc : (s.writers t).mayHaveEnqueued = true → pc.mayHaveEnqueued = true)
    (htest : pc.atEvent = true → (s.writers t).atEvent = true) :
    InOrder { s.setWriter t pc with isSet := isSet } := by
  refine h.setControl (fun t' ht' => ?_) (fun t' ht' => ?_) (fun _ => id) (fun _ => id) h.resumed
  · rcases eq_or_ne t' t with rfl | hne
    · rw [setWriter_writers_self]
      exact hpc ht'
    · rw [setWriter_writers_of_ne s pc hne]
      exact ht'
  · rcases eq_or_ne t' t with rfl | hne
    · rw [setWriter_writers_self] at ht'
      exact htest ht'
    · rw [setWriter_writers_of_ne s pc hne] at ht'
      exact ht'

/-- A call of `FlushTracesAsync` moves on. -/
theorem InOrder.setCall (h : s.InOrder) {c : CallId} {pc : CallPc} (isSet : Bool)
    (hpc : (s.calls c).mayHaveEnqueued = true → pc.mayHaveEnqueued = true)
    (hwaits : pc.waits = true → (s.calls c).waits = true)
    (hresumed : pc.resumed = true → s.watermarkRun c = true ∨ s.loop = .completed) :
    InOrder { s.setCall c pc with isSet := isSet } := by
  refine h.setControl (fun _ => id) (fun _ => id) (fun c' hc' => ?_) (fun c' hc' => ?_)
    (fun c' hc' => ?_)
  · rcases eq_or_ne c' c with rfl | hne
    · rw [setCall_calls_self]
      exact hpc hc'
    · rw [setCall_calls_of_ne s pc hne]
      exact hc'
  · rcases eq_or_ne c' c with rfl | hne
    · rw [setCall_calls_self] at hc'
      exact hwaits hc'
    · rw [setCall_calls_of_ne s pc hne] at hc'
      exact hc'
  · rcases eq_or_ne c' c with rfl | hne
    · rw [setCall_calls_self] at hc'
      exact hresumed hc'
    · rw [setCall_calls_of_ne s pc hne] at hc'
      exact h.resumed c' hc'

/-- An item of a queue with one more item is the new one, or was there before. -/
theorem mem_concat {queue : List WorkItem} {new item : WorkItem} {i : Nat}
    (hi : (queue ++ [new])[i]? = some item) :
    (queue[i]? = some item ∧ (queue ++ [new]).take i = queue.take i) ∨
      (item = new ∧ (queue ++ [new]).take i = queue) := by
  rcases Nat.lt_trichotomy i queue.length with hlt | rfl | hgt
  · rw [List.getElem?_append_left hlt] at hi
    exact Or.inl ⟨hi, List.take_append_of_le_length (Nat.le_of_lt hlt)⟩
  · rw [List.getElem?_concat_length, Option.some.injEq] at hi
    exact Or.inr ⟨hi.symm, List.take_left⟩
  · rw [List.getElem?_eq_none (by simp; omega)] at hi
    cases hi

/-- A trace goes into the queue. -/
theorem InOrder.enqueueTrace (h : s.InOrder) {t : TraceId} (hpc : s.writers t = .enqueue) :
    InOrder { s.setWriter t .testEvent with
      queue := s.queue ++ [.trace t], accepted := s.accepted ++ [t] } := by
  have hnew : t ∉ s.accepted := by
    intro ht
    have := h.writers t ht
    rw [hpc] at this
    cases this
  constructor
  case accepted => simp [h.accepted, WorkItem.trace?, PendingTraces.setWriter]
  case dequeued => exact h.dequeued
  case nodup =>
    refine List.nodup_append.mpr ⟨h.nodup, List.nodup_singleton t, ?_⟩
    rintro a ha b hb rfl
    exact hnew (List.mem_singleton.mp hb ▸ ha)
  case writers =>
    intro t' ht'
    show ((s.setWriter t .testEvent).writers t').mayHaveEnqueued = true
    rcases eq_or_ne t' t with rfl | hne
    · rw [setWriter_writers_self]
      rfl
    · rw [setWriter_writers_of_ne s _ hne]
      rcases List.mem_append.mp ht' with ht' | ht'
      · exact h.writers t' ht'
      · exact absurd (List.mem_singleton.mp ht') hne
  case tests =>
    intro t' ht'
    rcases eq_or_ne t' t with rfl | hne
    · exact List.mem_append_right _ (List.mem_singleton.mpr rfl)
    · refine List.mem_append_left _ (h.tests t' ?_)
      rw [← setWriter_writers_of_ne s .testEvent hne]
      exact ht'
  case before => exact fun c => List.Subset.trans (h.before c) (List.subset_append_left _ _)
  case calls =>
    rintro c (hc | hc)
    · rcases List.mem_append.mp hc with hc | hc
      · exact h.calls c (Or.inl hc)
      · simp at hc
    · exact h.calls c (Or.inr hc)
  case waits =>
    intro c hc
    rcases h.waits c hc with hq | hrest
    · exact Or.inl (List.mem_append_left _ hq)
    · exact Or.inr hrest
  case queued =>
    intro c i hi
    rcases mem_concat hi with ⟨hi, htake⟩ | ⟨hi, -⟩
    · show s.before c ⊆ _ ++ ((s.queue ++ [WorkItem.trace t]).take i).filterMap _
      rw [htake]
      exact h.queued c i hi
    · cases hi
  case called => exact h.called
  case resumed => exact h.resumed

/-- A watermark goes into the queue. -/
theorem InOrder.enqueueCallback (h : s.InOrder) {c : CallId} (hpc : s.calls c = .enqueue) :
    InOrder { s.setCall c .set with queue := s.queue ++ [.callback c] } := by
  constructor
  case accepted => simp [h.accepted, WorkItem.trace?, PendingTraces.setCall]
  case dequeued => exact h.dequeued
  case nodup => exact h.nodup
  case writers => exact h.writers
  case tests => exact h.tests
  case before => exact h.before
  case calls =>
    intro c' hc'
    show ((s.setCall c .set).calls c').mayHaveEnqueued = true
    rcases eq_or_ne c' c with rfl | hne
    · rw [setCall_calls_self]
      rfl
    · rw [setCall_calls_of_ne s _ hne]
      rcases hc' with hq | hrest
      · rcases List.mem_append.mp hq with hq | hq
        · exact h.calls c' (Or.inl hq)
        · simp [hne] at hq
      · exact h.calls c' (Or.inr hrest)
  case waits =>
    intro c' hc'
    rcases eq_or_ne c' c with rfl | hne
    · exact Or.inl (List.mem_append_right _ (List.mem_singleton.mpr rfl))
    · have hold : (s.calls c').waits = true := by
        rw [← setCall_calls_of_ne s .set hne]
        exact hc'
      rcases h.waits c' hold with hq | hrest
      · exact Or.inl (List.mem_append_left _ hq)
      · exact Or.inr hrest
  case queued =>
    intro c' i hi
    show s.before c' ⊆ s.dequeued ++ ((s.queue ++ [WorkItem.callback c]).take i).filterMap _
    rcases mem_concat hi with ⟨hi, htake⟩ | ⟨-, htake⟩
    · rw [htake]
      exact h.queued c' i hi
    · -- the new watermark is behind the whole queue
      rw [htake, ← h.accepted]
      exact h.before c'
  case called => exact h.called
  case resumed =>
    intro c' hc'
    rcases eq_or_ne c' c with rfl | hne
    · simp only [setCall_calls_self] at hc'
      cases hc'
    · exact h.resumed c' (by rw [← setCall_calls_of_ne s .set hne]; exact hc')

/-- A call of `FlushTracesAsync` begins. -/
theorem InOrder.callFlush (h : s.InOrder) {c : CallId} (hpc : s.calls c = .notCalled) :
    InOrder { s.setCall c .testCompleted with
      before := Function.update s.before c s.accepted } := by
  have hcalls : (s.setCall c .testCompleted).InOrder := by
    refine h.setCall s.isSet ?_ ?_ ?_ <;>
      simp [hpc, CallPc.mayHaveEnqueued, CallPc.waits, CallPc.resumed]
  -- the call has not enqueued a watermark yet
  have hnone : ¬s.Watermarked c := by
    intro hc
    have := h.calls c hc
    rw [hpc] at this
    cases this
  have hbefore : ∀ {c' : CallId} {l : List TraceId}, c' ≠ c → s.before c' ⊆ l →
      Function.update s.before c s.accepted c' ⊆ l := by
    intro c' l hne hl
    rw [Function.update_of_ne hne]
    exact hl
  constructor
  case accepted => exact h.accepted
  case dequeued => exact h.dequeued
  case nodup => exact h.nodup
  case writers => exact h.writers
  case tests => exact h.tests
  case before =>
    intro c'
    show Function.update s.before c s.accepted c' ⊆ s.accepted
    rcases eq_or_ne c' c with rfl | hne
    · rw [Function.update_self]
      exact List.Subset.refl _
    · exact hbefore hne (h.before c')
  case calls => exact hcalls.calls
  case waits => exact hcalls.waits
  case queued =>
    intro c' i hi
    rcases eq_or_ne c' c with rfl | hne
    · exact absurd (Or.inl (List.mem_of_getElem? hi)) hnone
    · exact hbefore hne (h.queued c' i hi)
  case called =>
    intro c' hc'
    rcases eq_or_ne c' c with rfl | hne
    · exact absurd (Or.inr hc') hnone
    · exact hbefore hne (h.called c' hc')
  case resumed => exact hcalls.resumed

/-! ## The steps -/

theorem InOrder.writeTrace (h : s.InOrder) {t : TraceId} {a : WriteAction}
    (hu : s.writeTrace t a = some u) : u.InOrder := by
  cases a <;> simp only [PendingTraces.writeTrace, Option.ite_none_right_eq_some,
    Option.some.injEq] at hu
  case call =>
    obtain ⟨hpc, rfl⟩ := hu
    exact h.setWriter s.isSet (by simp [hpc, WriterPc.mayHaveEnqueued]) fun htest => by cases htest
  case seesRunning =>
    obtain ⟨⟨hpc, -⟩, rfl⟩ := hu
    exact h.setWriter s.isSet (by simp [hpc, WriterPc.mayHaveEnqueued]) fun htest => by cases htest
  case seesCompleted =>
    obtain ⟨⟨hpc, -⟩, rfl⟩ := hu
    exact h.setWriter s.isSet (by simp [hpc, WriterPc.mayHaveEnqueued]) fun htest => by cases htest
  case enqueue =>
    obtain ⟨hpc, rfl⟩ := hu
    exact h.enqueueTrace hpc
  case seesSet =>
    obtain ⟨-, rfl⟩ := hu
    exact h.setWriter s.isSet (fun _ => rfl) fun htest => by cases htest
  case seesUnset =>
    obtain ⟨⟨hpc, -⟩, rfl⟩ := hu
    exact h.setWriter s.isSet (fun _ => rfl) fun _ => by rw [hpc]; rfl
  case set =>
    obtain ⟨-, rfl⟩ := hu
    exact h.setWriter true (fun _ => rfl) fun htest => by cases htest
  case serialized =>
    obtain ⟨-, rfl⟩ := hu
    exact h.setWriter s.isSet (fun _ => rfl) fun htest => by cases htest

theorem InOrder.flushTraces (h : s.InOrder) {c : CallId} {a : FlushAction}
    (hu : s.flushTraces c a = some u) : u.InOrder := by
  cases a <;> simp only [PendingTraces.flushTraces, Option.ite_none_right_eq_some,
    Option.some.injEq] at hu
  case call =>
    obtain ⟨hpc, rfl⟩ := hu
    exact h.callFlush hpc
  case seesRunning =>
    obtain ⟨⟨hpc, -⟩, rfl⟩ := hu
    refine h.setCall s.isSet ?_ ?_ ?_ <;>
      simp [hpc, CallPc.mayHaveEnqueued, CallPc.waits, CallPc.resumed]
  case seesCompleted =>
    obtain ⟨⟨-, hcompleted⟩, rfl⟩ := hu
    exact h.setCall s.isSet (fun _ => rfl) (fun hflush => by cases hflush)
      fun _ => Or.inr hcompleted
  case enqueue =>
    obtain ⟨hpc, rfl⟩ := hu
    exact h.enqueueCallback hpc
  case set =>
    obtain ⟨hpc, rfl⟩ := hu
    exact h.setCall true (fun _ => rfl) (fun _ => by rw [hpc]; rfl) fun hset => by cases hset
  case resumes =>
    obtain ⟨⟨-, hrun⟩, rfl⟩ := hu
    exact h.setCall s.isSet (fun _ => rfl) (fun hflush => by cases hflush) fun _ => Or.inl hrun
  case returns =>
    obtain ⟨hpc, rfl⟩ := hu
    exact h.setCall s.isSet (fun _ => rfl) (fun hreturned => by cases hreturned)
      fun _ => h.resumed c (by rw [hpc]; rfl)

theorem InOrder.flushAndClose (h : s.InOrder) {a : CloseAction}
    (hu : s.flushAndClose a = some u) : u.InOrder := by
  have hcontrol : ∀ {isSet processExit closing},
      InOrder { s with isSet := isSet, processExit := processExit, closing := closing } :=
    fun {_ _ _} =>
      h.setControl (fun _ => id) (fun _ => id) (fun _ => id) (fun _ => id) h.resumed
  cases a <;> simp only [PendingTraces.flushAndClose, Option.ite_none_right_eq_some,
    Option.some.injEq] at hu <;>
  · obtain ⟨-, rfl⟩ := hu
    exact hcontrol

theorem inLoop_of_emptyHanded (hempty : s.loop.emptyHanded = true) : s.inLoop = [] := by
  unfold inLoop
  split
  · rename_i hloop
    rw [hloop] at hempty
    cases hempty
  · rfl

theorem ne_callback_of_emptyHanded {pc : LoopPc} (hempty : pc.emptyHanded = true) (c : CallId) :
    pc ≠ .callback c := by
  rintro rfl
  cases hempty

/-- Between two work items, what was dequeued has been through `SerializeTrace`. -/
theorem InOrder.dequeued_eq_processed (h : s.InOrder) (hempty : s.loop.emptyHanded = true) :
    s.dequeued = s.processed := by
  rw [h.dequeued, inLoop_of_emptyHanded hempty, List.append_nil]

/-- The serialization thread moves on between two work items. -/
theorem InOrder.setLoop (h : s.InOrder) {loop : LoopPc} {isSet hasDequeuedTraces : Bool}
    (hempty : s.loop.emptyHanded = true) (hnot : s.loop ≠ .completed)
    (hempty' : loop.emptyHanded = true) :
    InOrder { s with loop := loop, isSet := isSet, hasDequeuedTraces := hasDequeuedTraces } := by
  constructor
  case accepted => exact h.accepted
  case dequeued =>
    rw [inLoop_of_emptyHanded hempty', List.append_nil]
    exact h.dequeued_eq_processed hempty
  case nodup => exact h.nodup
  case writers => exact h.writers
  case tests => exact h.tests
  case before => exact h.before
  case calls =>
    rintro c (hq | hloop | hrun)
    · exact h.calls c (Or.inl hq)
    · exact absurd hloop (ne_callback_of_emptyHanded hempty' c)
    · exact h.calls c (Or.inr (Or.inr hrun))
  case waits =>
    intro c hc
    rcases h.waits c hc with hq | hloop | hrun
    · exact Or.inl hq
    · exact absurd hloop (ne_callback_of_emptyHanded hempty c)
    · exact Or.inr (Or.inr hrun)
  case queued => exact h.queued
  case called =>
    rintro c (hloop | hrun)
    · exact absurd hloop (ne_callback_of_emptyHanded hempty' c)
    · exact h.called c (Or.inr hrun)
  case resumed =>
    intro c hc
    exact Or.inl ((h.resumed c hc).resolve_right hnot)

/-- The serialization thread dequeues a trace. -/
theorem InOrder.dequeueTrace (h : s.InOrder) {t : TraceId} {queue : List WorkItem}
    (hloop : s.loop = .dequeue) (hqueue : s.queue = .trace t :: queue) :
    InOrder { s with
      queue := queue, loop := .serialize t, hasDequeuedTraces := true
      dequeued := s.dequeued ++ [t] } := by
  constructor
  case accepted =>
    have hold := h.accepted
    rw [hqueue] at hold
    simpa [WorkItem.trace?] using hold
  case dequeued =>
    show s.dequeued ++ [t] = s.processed ++ [t]
    rw [h.dequeued_eq_processed (by rw [hloop]; rfl)]
  case nodup => exact h.nodup
  case writers => exact h.writers
  case tests => exact h.tests
  case before => exact h.before
  case calls =>
    rintro c (hq | hrest | hrun)
    · exact h.calls c (Or.inl (by rw [hqueue]; exact List.mem_cons_of_mem _ hq))
    · cases hrest
    · exact h.calls c (Or.inr (Or.inr hrun))
  case waits =>
    intro c hc
    rcases h.waits c hc with hq | hrest | hrun
    · rw [hqueue] at hq
      exact Or.inl (by simpa using hq)
    · rw [hloop] at hrest
      cases hrest
    · exact Or.inr (Or.inr hrun)
  case queued =>
    intro c i hi
    have hold := h.queued c (i + 1) (by rw [hqueue]; exact hi)
    rw [hqueue] at hold
    simpa [WorkItem.trace?] using hold
  case called =>
    rintro c (hrest | hrun)
    · cases hrest
    · exact h.called c (Or.inr hrun)
  case resumed =>
    intro c hc
    refine Or.inl ((h.resumed c hc).resolve_right ?_)
    rw [hloop]
    simp

/-- The serialization thread dequeues a watermark: the traces that its call found enqueued are no
longer in the queue. -/
theorem InOrder.dequeueCallback (h : s.InOrder) {c : CallId} {queue : List WorkItem}
    (hloop : s.loop = .dequeue) (hqueue : s.queue = .callback c :: queue) :
    InOrder { s with queue := queue, loop := .callback c } := by
  have hprocessed := h.dequeued_eq_processed (by rw [hloop]; rfl)
  constructor
  case accepted =>
    have hold := h.accepted
    rw [hqueue] at hold
    simpa [List.filterMap_cons, WorkItem.trace?] using hold
  case dequeued =>
    show s.dequeued = s.processed ++ []
    rw [hprocessed, List.append_nil]
  case nodup => exact h.nodup
  case writers => exact h.writers
  case tests => exact h.tests
  case before => exact h.before
  case calls =>
    rintro c' (hq | hrest | hrun)
    · exact h.calls c' (Or.inl (by rw [hqueue]; exact List.mem_cons_of_mem _ hq))
    · cases hrest
      exact h.calls c (Or.inl (by rw [hqueue]; exact List.mem_cons_self ..))
    · exact h.calls c' (Or.inr (Or.inr hrun))
  case waits =>
    intro c' hc
    rcases h.waits c' hc with hq | hrest | hrun
    · rw [hqueue] at hq
      rcases List.mem_cons.mp hq with heq | hq
      · cases heq
        exact Or.inr (Or.inl rfl)
      · exact Or.inl hq
    · rw [hloop] at hrest
      cases hrest
    · exact Or.inr (Or.inr hrun)
  case queued =>
    intro c' i hi
    have hold := h.queued c' (i + 1) (by rw [hqueue]; exact hi)
    rw [hqueue] at hold
    simpa [List.filterMap_cons, WorkItem.trace?] using hold
  case called =>
    rintro c' (hrest | hrun)
    · cases hrest
      have hold := h.queued c 0 (by rw [hqueue]; rfl)
      simpa [hprocessed] using hold
    · exact h.called c' (Or.inr hrun)
  case resumed =>
    intro c' hc
    refine Or.inl ((h.resumed c' hc).resolve_right ?_)
    rw [hloop]
    simp

/-- The serialization thread calls a watermark. -/
theorem InOrder.callback (h : s.InOrder) {c : CallId} (hloop : s.loop = .callback c) :
    InOrder { s with
      loop := .dequeue, watermarkRun := Function.update s.watermarkRun c true } := by
  have hrun : ∀ {c'}, Function.update s.watermarkRun c true c' = true ↔
      s.loop = .callback c' ∨ s.watermarkRun c' = true := by
    intro c'
    rcases eq_or_ne c' c with rfl | hne
    · simp [hloop]
    · simp [Function.update_of_ne hne, hloop, hne.symm]
  constructor
  case accepted => exact h.accepted
  case dequeued =>
    have hold := h.dequeued
    simp only [inLoop, hloop] at hold
    exact hold
  case nodup => exact h.nodup
  case writers => exact h.writers
  case tests => exact h.tests
  case before => exact h.before
  case calls =>
    rintro c' (hq | hrest | hc)
    · exact h.calls c' (Or.inl hq)
    · cases hrest
    · exact h.calls c' (Or.inr (hrun.mp hc))
  case waits =>
    intro c' hc
    rcases h.waits c' hc with hq | hrest
    · exact Or.inl hq
    · exact Or.inr (Or.inr (hrun.mpr hrest))
  case queued => exact h.queued
  case called =>
    rintro c' (hrest | hc)
    · cases hrest
    · exact h.called c' (hrun.mp hc)
  case resumed =>
    intro c' hc
    refine Or.inl (hrun.mpr (Or.inr ((h.resumed c' hc).resolve_right ?_)))
    rw [hloop]
    simp

/-- `SerializeTrace` is over, whether it returned or threw. -/
theorem InOrder.finish (h : s.InOrder) {t : TraceId} {loop : LoopPc}
    (hloop : s.loop = .serialize t) (hempty : loop.emptyHanded = true) :
    InOrder { s with loop := loop, processed := s.processed ++ [t] } := by
  constructor
  case accepted => exact h.accepted
  case dequeued =>
    rw [inLoop_of_emptyHanded hempty, List.append_nil]
    have hold := h.dequeued
    simp only [inLoop, hloop] at hold
    exact hold
  case nodup => exact h.nodup
  case writers => exact h.writers
  case tests => exact h.tests
  case before => exact h.before
  case calls =>
    rintro c (hq | hrest | hrun)
    · exact h.calls c (Or.inl hq)
    · exact absurd hrest (ne_callback_of_emptyHanded hempty c)
    · exact h.calls c (Or.inr (Or.inr hrun))
  case waits =>
    intro c hc
    rcases h.waits c hc with hq | hrest | hrun
    · exact Or.inl hq
    · rw [hloop] at hrest
      cases hrest
    · exact Or.inr (Or.inr hrun)
  case queued => exact h.queued
  case called =>
    rintro c (hrest | hrun)
    · exact absurd hrest (ne_callback_of_emptyHanded hempty c)
    · exact List.Subset.trans (h.called c (Or.inr hrun)) (List.subset_append_left _ _)
  case resumed =>
    intro c hc
    refine Or.inl ((h.resumed c hc).resolve_right ?_)
    rw [hloop]
    simp

theorem InOrder.serializeTracesLoop (h : s.InOrder) {a : LoopAction}
    (hu : s.serializeTracesLoop a = some u) : u.InOrder := by
  -- the steps that take no work item and give none back
  have hmove : ∀ {pc pc' : LoopPc} {isSet hasDequeuedTraces : Bool}, s.loop = pc →
      pc.emptyHanded = true → pc ≠ .completed → pc'.emptyHanded = true →
      InOrder { s with
        loop := pc', isSet := isSet, hasDequeuedTraces := hasDequeuedTraces } := by
    rintro _ pc' isSet hasDequeuedTraces rfl hempty hnot hempty'
    exact h.setLoop hempty hnot hempty'
  cases a <;> simp only [PendingTraces.serializeTracesLoop, Option.ite_none_right_eq_some,
    Option.some.injEq] at hu
  case dequeueTrace t =>
    obtain ⟨⟨hloop, hhead⟩, rfl⟩ := hu
    exact h.dequeueTrace hloop (List.cons_head?_tail hhead).symm
  case dequeueCallback c =>
    obtain ⟨⟨hloop, hhead⟩, rfl⟩ := hu
    exact h.dequeueCallback hloop (List.cons_head?_tail hhead).symm
  case dequeueNothing =>
    obtain ⟨⟨hloop, -⟩, rfl⟩ := hu
    exact hmove hloop rfl (by simp) rfl
  case callback =>
    split at hu
    · obtain rfl := Option.some.inj hu
      exact h.callback ‹_›
    · cases hu
  case serialized =>
    split at hu
    · obtain rfl := Option.some.inj hu
      exact h.finish ‹_› rfl
    · cases hu
  case threw =>
    split at hu
    · obtain rfl := Option.some.inj hu
      exact h.finish ‹_› rfl
    · cases hu
  case exit =>
    obtain ⟨⟨hloop, -⟩, rfl⟩ := hu
    exact hmove hloop rfl (by simp) rfl
  case stay =>
    obtain ⟨⟨hloop, -⟩, rfl⟩ := hu
    refine hmove hloop rfl (by simp) ?_
    split <;> rfl
  case wakeUp =>
    obtain ⟨hloop, rfl⟩ := hu
    exact hmove hloop rfl (by simp) rfl
  case waitReturns =>
    obtain ⟨⟨hloop, -⟩, rfl⟩ := hu
    exact hmove hloop rfl (by simp) rfl
  case reset =>
    obtain ⟨hloop, rfl⟩ := hu
    exact hmove hloop rfl (by simp) rfl
  case complete =>
    obtain ⟨hloop, rfl⟩ := hu
    exact hmove hloop rfl (by simp) rfl

/-- **The step**: every step keeps the queue in order. -/
theorem InOrder.step (h : s.InOrder) {e : QueueEvent} (hu : s.step e = some u) : u.InOrder := by
  cases e with
  | write t a => exact h.writeTrace hu
  | flush c a => exact h.flushTraces hu
  | close a => exact h.flushAndClose hu
  | loop a => exact h.serializeTracesLoop hu
  | flushLoopSeesRunning =>
      simp only [PendingTraces.step, Option.ite_none_right_eq_some, Option.some.injEq] at hu
      obtain ⟨-, rfl⟩ := hu
      exact h

/-- The queue is in order in every reachable state. -/
theorem inOrder (hs : system.Reachable s) : s.InOrder := by
  refine hs.invariant (fun s h₀ => ?_) fun s e u h hu => h.step hu
  obtain rfl : s = {} := h₀
  constructor <;> simp [inLoop, Watermarked, WriterPc.atEvent, CallPc.waits, CallPc.resumed]

/-- The trace at the head of the queue is enqueued and was never dequeued. -/
theorem InOrder.head (h : s.InOrder) {t : TraceId} (hhead : s.queue.head? = some (.trace t)) :
    t ∈ s.accepted ∧ t ∉ s.dequeued := by
  have haccepted := h.accepted
  rw [← List.cons_head?_tail hhead] at haccepted
  simp only [List.filterMap_cons, WorkItem.trace?] at haccepted
  have hnodup := h.nodup
  rw [haccepted] at hnodup ⊢
  refine ⟨List.mem_append_right _ (List.mem_cons_self ..), fun ht => ?_⟩
  exact (List.nodup_append.mp hnodup).2.2 t ht t (List.mem_cons_self ..) rfl

/-! ## The end of the loop -/

/-- The loop does not come back to its `TryDequeue`. -/
def Leaving (s : PendingTraces) : Prop :=
  (s.loop = .exitTest ∧ s.processExit = true) ∨ s.loop = .returned ∨ s.loop = .completed

instance (s : PendingTraces) : Decidable s.Leaving :=
  inferInstanceAs (Decidable (_ ∨ _))

/-- Nothing is enqueued after the last `TryDequeue` of the loop: no producer enqueues while the loop
is leaving, the exit flag is not set between a `TryDequeue` and the test of the flag unless the
queue is empty, and no exception makes the loop go to that test before the queue is empty. -/
def InTime (s : PendingTraces) (e : QueueEvent) : Prop :=
  (e.enqueues = true → ¬s.Leaving) ∧
    (e = .close .exit → s.loop = .exitTest → s.queue = []) ∧ e ≠ .loop .threw

instance (s : PendingTraces) (e : QueueEvent) : Decidable (s.InTime e) :=
  inferInstanceAs (Decidable (_ ∧ _ ∧ _))

/-- The invariant of the end: the loop leaves an empty queue. -/
def Drained (s : PendingTraces) : Prop := s.Leaving → s.queue = []

/-- A step that leaves the loop, the queue and the exit flag as they are. -/
theorem Drained.congr (h : s.Drained) (hqueue : u.queue = s.queue) (hloop : u.loop = s.loop)
    (hexit : u.processExit = s.processExit) : u.Drained := by
  intro hleaving
  rw [hqueue]
  apply h
  unfold Leaving at hleaving ⊢
  rw [hloop, hexit] at hleaving
  exact hleaving

/-- A step after which the loop is not leaving. -/
theorem Drained.of_not_leaving (pc : LoopPc) (hloop : u.loop = pc)
    (hpc : pc ≠ .exitTest ∧ pc ≠ .returned ∧ pc ≠ .completed) : u.Drained := by
  rintro (⟨hleaving, -⟩ | hleaving | hleaving)
  · exact absurd (hloop.symm.trans hleaving) hpc.1
  · exact absurd (hloop.symm.trans hleaving) hpc.2.1
  · exact absurd (hloop.symm.trans hleaving) hpc.2.2

theorem Drained.serializeTracesLoop (h : s.Drained) {a : LoopAction} (htime : s.InTime (.loop a))
    (hu : s.serializeTracesLoop a = some u) : u.Drained := by
  cases a <;> simp only [PendingTraces.serializeTracesLoop, Option.ite_none_right_eq_some,
    Option.some.injEq] at hu
  case dequeueTrace t =>
    obtain ⟨-, rfl⟩ := hu
    exact .of_not_leaving _ rfl (by simp)
  case dequeueCallback c =>
    obtain ⟨-, rfl⟩ := hu
    exact .of_not_leaving _ rfl (by simp)
  case dequeueNothing =>
    obtain ⟨⟨-, hempty⟩, rfl⟩ := hu
    exact fun _ => hempty
  case callback =>
    split at hu
    · obtain rfl := Option.some.inj hu
      exact .of_not_leaving _ rfl (by simp)
    · cases hu
  case serialized =>
    split at hu
    · obtain rfl := Option.some.inj hu
      exact .of_not_leaving _ rfl (by simp)
    · cases hu
  case threw => exact absurd rfl htime.2.2
  case exit =>
    obtain ⟨hexit, rfl⟩ := hu
    exact fun _ => h (Or.inl hexit)
  case stay =>
    obtain ⟨-, rfl⟩ := hu
    cases hdequeued : s.hasDequeuedTraces
    · exact .of_not_leaving .wait (by simp) (by simp)
    · exact .of_not_leaving .sleep (by simp) (by simp)
  case wakeUp =>
    obtain ⟨-, rfl⟩ := hu
    exact .of_not_leaving _ rfl (by simp)
  case waitReturns =>
    obtain ⟨-, rfl⟩ := hu
    exact .of_not_leaving _ rfl (by simp)
  case reset =>
    obtain ⟨-, rfl⟩ := hu
    exact .of_not_leaving _ rfl (by simp)
  case complete =>
    obtain ⟨hloop, rfl⟩ := hu
    exact fun _ => h (Or.inr (Or.inl hloop))

/-- **The step**: a step in time keeps the queue of a leaving loop empty. -/
theorem Drained.step (h : s.Drained) {e : QueueEvent} (htime : s.InTime e)
    (hu : s.step e = some u) : u.Drained := by
  cases e with
  | write t a =>
      cases a <;> simp only [PendingTraces.step, PendingTraces.writeTrace,
        Option.ite_none_right_eq_some, Option.some.injEq] at hu <;> obtain ⟨-, rfl⟩ := hu
      case enqueue => exact fun hleaving => absurd hleaving (htime.1 rfl)
      all_goals exact h.congr rfl rfl rfl
  | flush c a =>
      cases a <;> simp only [PendingTraces.step, PendingTraces.flushTraces,
        Option.ite_none_right_eq_some, Option.some.injEq] at hu <;> obtain ⟨-, rfl⟩ := hu
      case enqueue => exact fun hleaving => absurd hleaving (htime.1 rfl)
      all_goals exact h.congr rfl rfl rfl
  | close a =>
      cases a <;> simp only [PendingTraces.step, PendingTraces.flushAndClose,
        Option.ite_none_right_eq_some, Option.some.injEq] at hu <;> obtain ⟨-, rfl⟩ := hu
      case exit =>
        rintro (⟨hloop, -⟩ | hleaving)
        · exact htime.2.1 rfl hloop
        · exact h (Or.inr hleaving)
      all_goals exact h.congr rfl rfl rfl
  | loop a => exact h.serializeTracesLoop htime hu
  | flushLoopSeesRunning =>
      simp only [PendingTraces.step, Option.ite_none_right_eq_some, Option.some.injEq] at hu
      obtain ⟨-, rfl⟩ := hu
      exact h

/-- In every run whose steps are in time, a loop that is leaving leaves an empty queue. -/
theorem drained (hs : (system.restrict InTime).Reachable s) : s.Drained := by
  refine hs.invariant (fun s h₀ => ?_) fun s e u h hu => h.step hu.2 hu.1
  obtain rfl : s = {} := h₀
  exact fun _ => rfl

end PendingTraces

end DdTrace.Agent
