import DdTrace.Agent.Delivery

/-!
# The agent writer: what a flush leaves behind

What a call of `FlushTracesAsync` guarantees about the traces that were enqueued before it.

* `Ahead`: the buffers that a call of `FlushBuffers` still has to flush. A call never leaves a trace
  in a buffer behind it (`Covers`), unless its `Lock` finds the buffer locked.
* `flushTraces_complete`: when a call of `FlushTracesAsync` has returned, the traces that were
  enqueued before it are counted and in no buffer, in every run of calls of `WriteTrace` and
  `FlushTracesAsync`, the serialization thread and the flush loop in which the formatter does not
  throw and no flush of a call finds locked a buffer that holds such a trace.
* `overtaken_flush_incomplete`: where a flush of a call finds the buffer locked, the call returns
  while the traces are in flight.

Source: `Agent/AgentWriter.cs`, `FlushTracesAsync`, `FlushBuffers`, `FlushBuffer`.
-/

namespace DdTrace.Agent

open DdTrace.Lib

/-- The buffer is one that the call of `FlushBuffers` still has to flush. -/
def FlushPc.Ahead (tasks : TaskId → FlushTask) (side : Side) : FlushPc → Prop
  | .idle => False
  | .readActive => True
  | .testFull _ => True
  | .readTask now next => now = side ∨ next = some side
  | .awaitTask now next _ => now = side ∨ next = some side
  | .start now next => now = side ∨ next = some side
  | .running now next k => (now = side ∧ (tasks k).stage ≠ .done) ∨ next = some side
  | .awaitOwn now next k => (now = side ∧ (tasks k).stage ≠ .done) ∨ next = some side
  | .finished => False

/-- The task that the call of `FlushBuffers` has started for a buffer. -/
def FlushPc.task? : FlushPc → Option (Side × TaskId)
  | .running side _ k => some (side, k)
  | .awaitOwn side _ k => some (side, k)
  | _ => none

namespace Buffers

variable {maxBufferSize : Nat} {s u : Buffers}

/-! ## The tasks of a flusher -/

/-- The task that a call of `FlushBuffers` waits for is its own, on the buffer that it flushes. -/
def TasksOwned (s : Buffers) : Prop :=
  ∀ f side k, (s.flushes f).task? = some (side, k) →
    (s.tasks k).owner = f ∧ (s.tasks k).side = side ∧ (s.tasks k).stage ≠ .notStarted

theorem TasksOwned.congr (h : s.TasksOwned) (hflushes : u.flushes = s.flushes)
    (htasks : u.tasks = s.tasks) : u.TasksOwned := by
  unfold TasksOwned
  rw [hflushes, htasks]
  exact h

/-- A call of `FlushBuffers` moves on without a task, or with the one it has. -/
theorem TasksOwned.setFlush (h : s.TasksOwned) {f : Flusher} {pc : FlushPc}
    (hpc : pc.task? = none ∨ pc.task? = (s.flushes f).task?) : (s.setFlush f pc).TasksOwned := by
  intro f' side k hk
  have hk : (Function.update s.flushes f pc f').task? = some (side, k) := hk
  rcases eq_or_ne f' f with rfl | hne
  · rw [Function.update_self] at hk
    rcases hpc with hpc | hpc
    · rw [hpc] at hk
      cases hk
    · exact h f' side k (hpc ▸ hk)
  · rw [Function.update_of_ne hne] at hk
    exact h f' side k hk

theorem TasksOwned.flush (h : s.TasksOwned) {f : Flusher} {a : FlushBuffersAction}
    (hu : FlushEffect s f a u) : u.TasksOwned := by
  cases hu with
  | @start side next k _ hfresh =>
      intro f' side' k' hk
      have hk : (Function.update s.flushes f (.running side next k) f').task? =
        some (side', k') := hk
      show (Function.update s.tasks k _ k').owner = f' ∧
        (Function.update s.tasks k _ k').side = side' ∧
        (Function.update s.tasks k _ k').stage ≠ .notStarted
      rcases eq_or_ne f' f with rfl | hne
      · rw [Function.update_self] at hk
        cases hk
        rw [Function.update_self]
        simp
      · rw [Function.update_of_ne hne] at hk
        obtain ⟨howner, hside, hstage⟩ := h f' side' k' hk
        have hne' : k' ≠ k := by
          rintro rfl
          exact hstage hfresh
        rw [Function.update_of_ne hne']
        exact ⟨howner, hside, hstage⟩
  | assign hpc =>
      refine TasksOwned.congr (s := s.setFlush f _) (h.setFlush (Or.inr ?_)) rfl rfl
      rw [hpc]
      rfl
  | _ => exact h.setFlush (Or.inl rfl)

/-- What a step of a task does to the tasks. -/
theorem TaskEffect.tasks {k : TaskId} {a : TaskAction} (hu : TaskEffect s k a u) :
    u.flushes = s.flushes ∧ (u.tasks = s.tasks ∨ ∃ stage, stage ≠ .notStarted ∧
      u.tasks = Function.update s.tasks k { s.tasks k with stage := stage }) := by
  cases hu with
  | enter => exact ⟨rfl, Or.inl rfl⟩
  | _ => exact ⟨rfl, Or.inr ⟨_, by simp, rfl⟩⟩

/-- What a step of `SerializeTrace` does to the tasks: nothing. -/
theorem SerializeEffect.tasks {h : Serializer} {a : SerializeAction}
    (hu : SerializeEffect maxBufferSize s h a u) : u.flushes = s.flushes ∧ u.tasks = s.tasks := by
  cases hu <;> exact ⟨rfl, rfl⟩

/-- The tasks of the flushers are their own in every reachable state. -/
theorem tasksOwned (hs : (system maxBufferSize).Reachable s) : s.TasksOwned := by
  refine hs.invariant (fun s h₀ => ?_) fun s e u h hu => ?_
  · obtain rfl : s = {} := h₀
    rintro f side k ⟨⟩
  · cases e with
    | serialize i a =>
        obtain ⟨hflushes, htasks⟩ := (serializeTrace_effect hu).tasks
        exact h.congr hflushes htasks
    | flush f a => exact h.flush (flushBuffers_effect hu)
    | task k a =>
        obtain ⟨hflushes, htasks | ⟨stage, hstage, htasks⟩⟩ :=
          (internalBufferFlush_effect hu).tasks
        · exact h.congr hflushes htasks
        · intro f side j hj
          rw [hflushes] at hj
          obtain ⟨howner, hside, hold⟩ := h f side j hj
          rw [htasks]
          rcases eq_or_ne j k with rfl | hne
          · rw [Function.update_self]
            exact ⟨howner, hside, hstage⟩
          · rw [Function.update_of_ne hne]
            exact ⟨howner, hside, hold⟩

/-! ## What a flusher has not flushed yet -/

/-- The traces of a list that are in a buffer are in one that the flusher still has to flush. -/
def Covers (s : Buffers) (f : Flusher) (traces : List TraceId) : Prop :=
  ∀ t ∈ traces, ∀ side, t ∈ (s.buffers side).traces → (s.flushes f).Ahead s.tasks side

/-- The step is a `Lock` that does not find locked a buffer with one of the traces, or is no `Lock`
of the flusher. -/
def LocksAlone (s : Buffers) (f : Flusher) (traces : List TraceId) (e : BufferEvent) : Prop :=
  ∀ k, e = .task k .lock → (s.tasks k).owner = f → (s.bufferOf k).locked = true →
    ∀ t ∈ traces, t ∉ (s.bufferOf k).traces

variable {f : Flusher} {traces : List TraceId}

@[simp] theorem setFlush_flushes_self (pc : FlushPc) : (s.setFlush f pc).flushes f = pc :=
  Function.update_self ..

/-- A step that leaves the flusher as it is, and brings none of the traces to a buffer. -/
theorem Covers.mono (h : s.Covers f traces)
    (htraces : ∀ t ∈ traces, ∀ side, t ∈ (u.buffers side).traces → t ∈ (s.buffers side).traces)
    (hahead : ∀ side, (s.flushes f).Ahead s.tasks side → (u.flushes f).Ahead u.tasks side) :
    u.Covers f traces :=
  fun t ht side hside => hahead side (h t ht side (htraces t ht side hside))

/-- A buffer changes and keeps its traces. -/
theorem mem_of_setBuffer {side side' : Side} {b : SpanBuffer} {t : TraceId}
    (ht : t ∈ ((s.setBuffer side b).buffers side').traces)
    (hb : t ∈ b.traces → t ∈ (s.buffers side).traces) : t ∈ (s.buffers side').traces := by
  have ht : t ∈ (Function.update s.buffers side b side').traces := ht
  rcases eq_or_ne side' side with rfl | hne
  · rw [Function.update_self] at ht
    exact hb ht
  · rw [Function.update_of_ne hne] at ht
    exact ht

/-- What a call of `SerializeTrace` brings to a buffer was in its hand. -/
theorem SerializeEffect.mem_traces {h : Serializer} {a : SerializeAction}
    (hu : SerializeEffect maxBufferSize s h a u) {side : Side} {t : TraceId}
    (ht : t ∈ (u.buffers side).traces) :
    t ∈ (s.buffers side).traces ∨ s.ledger.hands h = some t := by
  cases hu with
  | take => exact Or.inl ht
  | move => exact Or.inl ht
  | drop => exact Or.inl ht
  | leave => exact Or.inl ht
  | enter => exact Or.inl (mem_of_setBuffer ht id)
  | @overflow _ side' =>
      have ht : t ∈ ((s.setBuffer side' _).buffers side).traces := ht
      exact Or.inl (mem_of_setBuffer ht id)
  | @lose _ side' =>
      have ht : t ∈ ((s.setBuffer side' _).buffers side).traces := ht
      exact Or.inl (mem_of_setBuffer ht id)
  | @store t' side' _ _ hpc =>
      have ht : t ∈ (Function.update s.buffers side' _ side).traces := ht
      rcases eq_or_ne side side' with rfl | hne
      · rw [Function.update_self] at ht
        rcases List.mem_append.mp ht with ht | ht
        · exact Or.inl ht
        · obtain rfl := List.mem_singleton.mp ht
          exact Or.inr ((congrArg inHand hpc).trans (inHand_of_not_over rfl))
      · rw [Function.update_of_ne hne] at ht
        exact Or.inl ht

theorem Covers.serialize (h : s.Covers f traces) {i : Serializer} {a : SerializeAction}
    (hhand : ∀ t ∈ traces, s.ledger.hands i ≠ some t)
    (hu : SerializeEffect maxBufferSize s i a u) : u.Covers f traces := by
  obtain ⟨hflushes, htasks⟩ := hu.tasks
  refine h.mono (fun t ht side hside => ?_) (fun side => by rw [hflushes, htasks]; exact id)
  exact (hu.mem_traces hside).resolve_right (hhand t ht)

/-- The tasks of other calls, and of this one on the other buffer, do not matter. -/
theorem ahead_congr {pc : FlushPc} {tasks tasks' : TaskId → FlushTask} {side : Side}
    (h : ∀ k, pc.task? = some (side, k) → (tasks k).stage ≠ .done → (tasks' k).stage ≠ .done)
    (hahead : pc.Ahead tasks side) : pc.Ahead tasks' side := by
  cases pc with
  | running now next k =>
      rcases hahead with ⟨rfl, hstage⟩ | hnext
      · exact Or.inl ⟨rfl, h k rfl hstage⟩
      · exact Or.inr hnext
  | awaitOwn now next k =>
      rcases hahead with ⟨rfl, hstage⟩ | hnext
      · exact Or.inl ⟨rfl, h k rfl hstage⟩
      · exact Or.inr hnext
  | _ => exact hahead

/-- Another call of `FlushBuffers` moves on. -/
theorem Covers.flush_of_ne (h : s.Covers f traces) (howned : s.TasksOwned) {f' : Flusher}
    {a : FlushBuffersAction} (hne : f' ≠ f) (hu : FlushEffect s f' a u) : u.Covers f traces := by
  obtain ⟨hbuffers, -, -, htasks⟩ := hu.frame
  have hflushes : u.flushes f = s.flushes f := by
    cases hu <;> exact Function.update_of_ne hne.symm ..
  refine h.mono (fun t _ side hside => by rw [hbuffers] at hside; exact hside) fun side => ?_
  rw [hflushes]
  refine ahead_congr fun k hk hstage => ?_
  rcases htasks with htasks | ⟨k', side', hfresh, htasks⟩
  · rw [htasks]
    exact hstage
  · rw [htasks, Function.update_of_ne]
    · exact hstage
    · rintro rfl
      exact (howned f side k hk).2.2 hfresh

/-- The flusher moves on, and not to another call of `FlushBuffers`. -/
theorem Covers.flush (h : s.Covers f traces) (hall : f.flushAllBuffers = true)
    {a : FlushBuffersAction} (hcall : a ≠ .call) (hu : FlushEffect s f a u) :
    u.Covers f traces := by
  have hmove : ∀ {pc pc' : FlushPc}, s.flushes f = pc →
      (∀ side, pc.Ahead s.tasks side → pc'.Ahead s.tasks side) →
      (s.setFlush f pc').Covers f traces := by
    rintro pc pc' rfl hahead
    refine h.mono (fun _ _ _ => id) fun side hside => ?_
    rw [setFlush_flushes_self]
    exact hahead side hside
  cases hu with
  | call => exact absurd rfl hcall
  | readActive hpc => exact hmove hpc fun _ _ => trivial
  | @flushBoth active hpc =>
      -- the two buffers are all buffers
      refine hmove hpc fun side _ => ?_
      cases active <;> cases side <;> simp [FlushPc.Ahead, Side.other]
  | flushOne _ hone =>
      rw [hall] at hone
      cases hone
  | readTask hpc => exact hmove hpc fun _ => id
  | resume hpc => exact hmove hpc fun _ => id
  | @start side next k hpc =>
      refine h.mono (fun _ _ _ => id) fun side' hside => ?_
      rw [hpc] at hside
      show FlushPc.Ahead _ side' (Function.update s.flushes f _ f)
      rw [Function.update_self]
      rcases hside with hnow | hnext
      · exact Or.inl ⟨hnow, by simp⟩
      · exact Or.inr hnext
  | assign hpc =>
      refine Covers.mono (s := s.setFlush f _) (hmove hpc ?_) (fun _ _ _ => id) (fun _ => id)
      exact fun _ => id
  | next hpc hdone =>
      refine hmove hpc fun side hside => ?_
      rcases hside with ⟨-, hnot⟩ | hnext
      · exact absurd hdone hnot
      · exact Or.inl (Option.some.inj hnext)
  | finish hpc hdone =>
      refine hmove hpc fun side hside => ?_
      rcases hside with ⟨-, hnot⟩ | hnext
      · exact absurd hdone hnot
      · cases hnext
  | «return» hpc => exact hmove hpc fun _ => id

/-- What a step of a task does to the content of the buffers. -/
theorem TaskEffect.mem_traces {k : TaskId} {a : TaskAction} (hu : TaskEffect s k a u) {side : Side}
    {t : TraceId} (ht : t ∈ (u.buffers side).traces) : t ∈ (s.buffers side).traces := by
  have hmem : ∀ {b : SpanBuffer}, u.buffers = Function.update s.buffers (s.tasks k).side b →
      (t ∈ b.traces → t ∈ (s.bufferOf k).traces) → t ∈ (s.buffers side).traces := by
    intro b hbuffers hb
    rw [hbuffers] at ht
    exact mem_of_setBuffer ht hb
  cases hu with
  | clear => exact hmem rfl (by simp)
  | _ => exact hmem rfl id

/-- A task that goes on, and is not at its end, is ahead of its flusher as it was before. -/
theorem Covers.task_of_not_done (h : s.Covers f traces) {k : TaskId} {a : TaskAction}
    {stage : TaskStage} (hu : TaskEffect s k a u)
    (htasks : u.tasks = Function.update s.tasks k { s.tasks k with stage := stage })
    (hstage : stage ≠ .done) : u.Covers f traces := by
  refine h.mono (fun t _ side => hu.mem_traces) fun side => ?_
  rw [hu.tasks.1]
  refine ahead_congr fun j _ hj => ?_
  rw [htasks]
  rcases eq_or_ne j k with rfl | hne
  · rw [Function.update_self]
    exact hstage
  · rw [Function.update_of_ne hne]
    exact hj

/-- A task ends, and leaves none of the traces in its buffer if it is a task of the flusher. -/
theorem Covers.task_of_done (h : s.Covers f traces) (howned : s.TasksOwned) {k : TaskId}
    {a : TaskAction} (hu : TaskEffect s k a u)
    (htasks : u.tasks = Function.update s.tasks k { s.tasks k with stage := .done })
    (hgone : (s.tasks k).owner = f → ∀ t ∈ traces, t ∉ (u.buffers (s.tasks k).side).traces) :
    u.Covers f traces := by
  intro t ht side hside
  have hahead := h t ht side (hu.mem_traces hside)
  rw [hu.tasks.1]
  refine ahead_congr (fun j hj hstage => ?_) hahead
  rw [htasks, Function.update_of_ne]
  · exact hstage
  · -- the flusher does not wait for this task on the buffer that the trace is in
    rintro rfl
    obtain ⟨howner, rfl, -⟩ := howned f side j hj
    exact hgone howner t ht hside

/-- A task moves on: one that ends leaves none of the traces in its buffer. -/
theorem Covers.task (h : s.Covers f traces) (howned : s.TasksOwned) {k : TaskId} {a : TaskAction}
    (halone : s.LocksAlone f traces (.task k a)) (hu : TaskEffect s k a u) :
    u.Covers f traces := by
  have heffect := hu
  cases hu with
  | enter => exact h.mono (fun t _ side => heffect.mem_traces) fun _ => id
  | lock => exact h.task_of_not_done heffect rfl (by simp)
  | send => exact h.task_of_not_done heffect rfl (by simp)
  | skip => exact h.task_of_not_done heffect rfl (by simp)
  | keep => exact h.task_of_not_done heffect rfl (by simp)
  | drop => exact h.task_of_not_done heffect rfl (by simp)
  | fail _ _ hlocked =>
      refine h.task_of_done howned heffect rfl fun howner t ht hmem => ?_
      exact halone k rfl howner hlocked t ht (heffect.mem_traces hmem)
  | clear =>
      refine h.task_of_done howned heffect rfl fun _ t _ hmem => ?_
      have hmem : t ∈ (Function.update s.buffers (s.tasks k).side {} (s.tasks k).side).traces :=
        hmem
      rw [Function.update_self] at hmem
      cases hmem

/-- A flusher that is not in `FlushBuffers` gets there only by a call. -/
theorem idle_step (h : s.flushes f = .idle) {e : BufferEvent} (hcall : e ≠ .flush f .call)
    (hu : s.step maxBufferSize e = some u) : u.flushes f = .idle := by
  cases e with
  | serialize i a => rw [(serializeTrace_effect hu).tasks.1, h]
  | task k a => rw [(internalBufferFlush_effect hu).tasks.1, h]
  | flush f' a =>
      have heffect := flushBuffers_effect hu
      rcases eq_or_ne f' f with rfl | hne
      · cases heffect with
        | call => exact absurd rfl hcall
        | «return» => exact setFlush_flushes_self _
        | readActive hpc => rw [h] at hpc; cases hpc
        | flushBoth hpc => rw [h] at hpc; cases hpc
        | flushOne hpc => rw [h] at hpc; cases hpc
        | readTask hpc => rw [h] at hpc; cases hpc
        | resume hpc => rw [h] at hpc; cases hpc
        | start hpc => rw [h] at hpc; cases hpc
        | assign hpc => rw [h] at hpc; cases hpc
        | next hpc => rw [h] at hpc; cases hpc
        | finish hpc => rw [h] at hpc; cases hpc
      · rw [← h]
        cases heffect <;> exact Function.update_of_ne hne.symm ..

theorem idle_of_return (hu : FlushEffect s f .return u) : u.flushes f = .idle := by
  cases hu
  exact setFlush_flushes_self _

/-- A call of `FlushBuffers` that begins has both buffers ahead of it. -/
theorem Covers.call (hu : FlushEffect s f .call u) : u.Covers f traces := by
  cases hu with
  | call =>
      intro t _ side _
      rw [setFlush_flushes_self]
      trivial

/-- **The step**: as long as the flusher does not begin another call of `FlushBuffers`, it leaves
none of the traces behind it. -/
theorem Covers.step (h : s.Covers f traces) (howned : s.TasksOwned)
    (hall : f.flushAllBuffers = true) (hhand : ∀ t ∈ traces, ∀ i, s.ledger.hands i ≠ some t)
    {e : BufferEvent} (hcall : e ≠ .flush f .call) (halone : s.LocksAlone f traces e)
    (hu : s.step maxBufferSize e = some u) : u.Covers f traces := by
  cases e with
  | serialize i a => exact h.serialize (fun t ht => hhand t ht i) (serializeTrace_effect hu)
  | flush f' a =>
      rcases eq_or_ne f' f with rfl | hne
      · exact h.flush hall (fun ha => hcall (ha ▸ rfl)) (flushBuffers_effect hu)
      · exact h.flush_of_ne howned hne (flushBuffers_effect hu)
  | task k a => exact h.task howned halone (internalBufferFlush_effect hu)

end Buffers

/-! ## The calls of `FlushTracesAsync` -/

/-- The step is one of `FlushAndCloseAsync`. -/
def QueueEvent.closes : QueueEvent → Bool
  | .close _ => true
  | _ => false

/-- The task that is about to end its call of `Lock`. -/
def BufferEvent.lock? : BufferEvent → Option TaskId
  | .task k .lock => some k
  | _ => none

/-- The call of `FlushTracesAsync` that the flusher belongs to. -/
def Flusher.call? : Flusher → Option CallId
  | .call c => some c
  | _ => none

/-- A call of `FlushBuffers` for a call of `FlushTracesAsync` begins and ends together with a step
of that call. -/
theorem flush_of_partner {q : QueueEvent} {c : CallId} {b : FlushBuffersAction} :
    some (.flush (.call c) b) ∈ q.partners → ∃ a, q = .flush c a := by
  cases q with
  | write t a => cases a <;> simp [QueueEvent.partners]
  | flush c' a =>
      cases a <;> simp only [QueueEvent.partners, List.mem_singleton, Option.some.injEq,
        BufferEvent.flush.injEq, Flusher.call.injEq, reduceCtorEq, IsEmpty.forall_iff] <;>
      · rintro ⟨rfl, -⟩
        exact ⟨_, rfl⟩
  | close a => cases a <;> simp [QueueEvent.partners]
  | loop a => cases a <;> simp [QueueEvent.partners]
  | flushLoopSeesRunning => simp [QueueEvent.partners]

namespace PendingTraces

variable {s u : PendingTraces}

/-- Without `FlushAndCloseAsync`, the loop does not end. -/
theorem loop_of_not_closes (hs : (system.restrict fun _ q => q.closes = false).Reachable s) :
    s.processExit = false ∧ s.loop ≠ .returned ∧ s.loop ≠ .completed := by
  refine hs.invariant (I := fun s => s.processExit = false ∧ s.loop ≠ .returned ∧
    s.loop ≠ .completed) (fun s h₀ => ?_) fun s q u h hstep => ?_
  · obtain rfl : s = {} := h₀
    simp
  · have hu : s.step q = some u := hstep.1
    cases q with
    | write t a =>
        cases a <;> simp only [step, writeTrace, Option.ite_none_right_eq_some,
          Option.some.injEq] at hu <;>
        · obtain ⟨-, rfl⟩ := hu
          exact h
    | flush c a =>
        cases a <;> simp only [step, flushTraces, Option.ite_none_right_eq_some,
          Option.some.injEq] at hu <;>
        · obtain ⟨-, rfl⟩ := hu
          exact h
    | close a => exact absurd hstep.2 (by simp [QueueEvent.closes])
    | flushLoopSeesRunning =>
        simp only [step, Option.ite_none_right_eq_some, Option.some.injEq] at hu
        obtain ⟨-, rfl⟩ := hu
        exact h
    | loop a =>
        cases a <;> simp only [step, serializeTracesLoop, Option.ite_none_right_eq_some,
          Option.some.injEq] at hu
        case callback =>
          split at hu
          · obtain rfl := Option.some.inj hu
            exact ⟨h.1, by simp, by simp⟩
          · cases hu
        case serialized =>
          split at hu
          · obtain rfl := Option.some.inj hu
            exact ⟨h.1, by simp, by simp⟩
          · cases hu
        case threw =>
          split at hu
          · obtain rfl := Option.some.inj hu
            exact ⟨h.1, by simp, by simp⟩
          · cases hu
        case exit =>
          -- the exit flag is not set
          obtain ⟨⟨-, hexit⟩, -⟩ := hu
          rw [h.1] at hexit
          cases hexit
        case complete => exact absurd hu.1 h.2.1
        case stay =>
          obtain ⟨-, rfl⟩ := hu
          refine ⟨h.1, ?_, ?_⟩ <;> cases s.hasDequeuedTraces <;> simp
        all_goals
          obtain ⟨-, rfl⟩ := hu
          exact ⟨h.1, by simp, by simp⟩

/-- The steps that are not of a call of `FlushTracesAsync` leave the calls as they are. -/
theorem calls_of_step {q : QueueEvent} (hu : s.step q = some u) (c : CallId)
    (hq : ∀ a, q ≠ .flush c a) : u.calls c = s.calls c ∧ u.before c = s.before c := by
  cases q with
  | write t a =>
      cases a <;> simp only [step, writeTrace, Option.ite_none_right_eq_some,
        Option.some.injEq] at hu <;>
      · obtain ⟨-, rfl⟩ := hu
        exact ⟨rfl, rfl⟩
  | close a =>
      cases a <;> simp only [step, flushAndClose, Option.ite_none_right_eq_some,
        Option.some.injEq] at hu <;>
      · obtain ⟨-, rfl⟩ := hu
        exact ⟨rfl, rfl⟩
  | flushLoopSeesRunning =>
      simp only [step, Option.ite_none_right_eq_some, Option.some.injEq] at hu
      obtain ⟨-, rfl⟩ := hu
      exact ⟨rfl, rfl⟩
  | loop a =>
      cases a <;> simp only [step, serializeTracesLoop, Option.ite_none_right_eq_some,
        Option.some.injEq] at hu
      case callback =>
        split at hu
        · obtain rfl := Option.some.inj hu
          exact ⟨rfl, rfl⟩
        · cases hu
      case serialized =>
        split at hu
        · obtain rfl := Option.some.inj hu
          exact ⟨rfl, rfl⟩
        · cases hu
      case threw =>
        split at hu
        · obtain rfl := Option.some.inj hu
          exact ⟨rfl, rfl⟩
        · cases hu
      all_goals
        obtain ⟨-, rfl⟩ := hu
        exact ⟨rfl, rfl⟩
  | flush c' a =>
      have hne : c ≠ c' := by
        rintro rfl
        exact hq a rfl
      cases a <;> simp only [step, flushTraces, Option.ite_none_right_eq_some,
        Option.some.injEq] at hu <;> obtain ⟨-, rfl⟩ := hu
      case call => exact ⟨setCall_calls_of_ne s _ hne, Function.update_of_ne hne ..⟩
      all_goals exact ⟨setCall_calls_of_ne s _ hne, rfl⟩

/-- A call of `FlushTracesAsync` gets past its watermark only together with its call of
`FlushBuffers`, and the traces that it found enqueued stay the same. -/
theorem resumed_step {q : QueueEvent} (hu : s.step q = some u) {c : CallId}
    (hc : (u.calls c).resumed = true) :
    u.before c = s.before c ∧
      ((s.calls c).resumed = true ∨ q.partners = [some (.flush (.call c) .call)]) := by
  by_cases hq : ∃ a, q = .flush c a
  · obtain ⟨a, rfl⟩ := hq
    cases a <;> simp only [step, flushTraces, Option.ite_none_right_eq_some,
      Option.some.injEq] at hu <;> obtain ⟨hpc, rfl⟩ := hu
    case seesCompleted => exact ⟨rfl, Or.inr rfl⟩
    case resumes => exact ⟨rfl, Or.inr rfl⟩
    case returns => exact ⟨rfl, Or.inl (by rw [hpc]; rfl)⟩
    all_goals
      simp only [setCall_calls_self] at hc
      cases hc
  · obtain ⟨hcalls, hbefore⟩ := calls_of_step hu c fun a ha => hq ⟨a, ha⟩
    rw [hcalls] at hc
    exact ⟨hbefore, Or.inl hc⟩

/-- A call of `FlushTracesAsync` returns only together with its call of `FlushBuffers`, which began
when it was waiting. -/
theorem returned_step {q : QueueEvent} (hu : s.step q = some u) {c : CallId}
    (hc : u.calls c = .returned) :
    (s.calls c = .returned ∧ some (.flush (.call c) .call) ∉ q.partners) ∨
      q.partners = [some (.flush (.call c) .return)] := by
  by_cases hq : ∃ a, q = .flush c a
  · obtain ⟨a, rfl⟩ := hq
    cases a <;> simp only [step, flushTraces, Option.ite_none_right_eq_some,
      Option.some.injEq] at hu <;> obtain ⟨hpc, rfl⟩ := hu
    case returns => exact Or.inr rfl
    all_goals
      simp only [setCall_calls_self] at hc
      cases hc
  · obtain ⟨hcalls, -⟩ := calls_of_step hu c fun a ha => hq ⟨a, ha⟩
    rw [hcalls] at hc
    exact Or.inl ⟨hc, fun hpartner => hq (flush_of_partner hpartner)⟩

end PendingTraces

namespace AgentWriter

variable {maxBufferSize : Nat} {s u : PendingTraces × Buffers}

/-- The formatter does not throw, and `FlushAndCloseAsync` is not called. -/
def Ordinary (s : PendingTraces × Buffers) (a : Option QueueEvent × Option BufferEvent) : Prop :=
  NoThrow s a ∧ ∀ q ∈ a.1, q.closes = false

instance : DecidableRel Ordinary := fun _ _ => inferInstanceAs (Decidable (_ ∧ _))

/-- Besides, no flush of a call of `FlushTracesAsync` finds locked a buffer that holds a trace that
was enqueued before the call. -/
def Undisturbed (s : PendingTraces × Buffers) (a : Option QueueEvent × Option BufferEvent) : Prop :=
  Ordinary s a ∧
    ∀ b ∈ a.2, ∀ k ∈ b.lock?, (s.2.bufferOf k).locked = true →
      ∀ c ∈ (s.2.tasks k).owner.call?, ∀ t ∈ s.1.before c, t ∉ (s.2.bufferOf k).traces

instance : DecidableRel Undisturbed := fun _ _ => inferInstanceAs (Decidable (_ ∧ _))

theorem Undisturbed.locksAlone {q : Option QueueEvent} {b : BufferEvent}
    (h : Undisturbed s (q, some b)) (c : CallId) :
    s.2.LocksAlone (.call c) (s.1.before c) b := by
  rintro k rfl howner hlocked
  exact h.2 _ rfl k rfl hlocked c (by rw [howner]; rfl)

/-- Without `FlushAndCloseAsync`, a call of `FlushTracesAsync` that is past its watermark finds the
traces that were enqueued before it in a place, and in no hand. -/
theorem before_placed (hs : ((system maxBufferSize).restrict Undisturbed).Reachable s) {c : CallId}
    (hc : (s.1.calls c).resumed = true) {t : TraceId} (ht : t ∈ s.1.before c) :
    t ∈ s.2.places ∧ t ∈ s.1.dequeued ∧ s.1.loop ≠ .serialize t ∧
      ∀ i, s.2.ledger.hands i ≠ some t := by
  have hreachable := hs.of_restrict
  have horder := PendingTraces.inOrder hreachable.left_of_sync
  have hopen := PendingTraces.loop_of_not_closes
    (hs.left_of_restrict_sync fun _ _ _ h => h.1.2 _ rfl)
  have hprocessed : t ∈ s.1.processed :=
    horder.called c (Or.inr ((horder.resumed c hc).resolve_right hopen.2.2)) ht
  have hdequeued : t ∈ s.1.dequeued := by
    rw [horder.dequeued]
    exact List.mem_append_left _ hprocessed
  have haccepted : t ∈ s.1.accepted := by
    rw [horder.accepted]
    exact List.mem_append_left _ hdequeued
  have hloop : s.1.loop ≠ .serialize t := by
    intro hloop
    have hnodup : s.1.dequeued.Nodup := by
      have := horder.nodup
      rw [horder.accepted] at this
      exact (List.nodup_append.mp this).1
    rw [horder.dequeued] at hnodup
    simp only [PendingTraces.inLoop, hloop] at hnodup
    exact (List.nodup_append.mp hnodup).2.2 t hprocessed t (List.mem_singleton.mpr rfl) rfl
  have hrunning := not_running hreachable haccepted hloop
  refine ⟨?_, hdequeued, hloop, fun i hi => hrunning i (Buffers.running_of_inHand hi)⟩
  exact mem_places (hs.restrict_mono fun _ _ h => h.1.1)
    (((linked hreachable).taken t).mpr (Or.inl hdequeued)) hrunning

/-- The invariant of the flushes: a call of `FlushTracesAsync` leaves none of the traces that were
enqueued before it behind it, and is not in `FlushBuffers` after it has returned. -/
structure CoversBefore (s : PendingTraces × Buffers) : Prop where
  covers : ∀ c, (s.1.calls c).resumed = true → s.2.Covers (.call c) (s.1.before c)
  idle : ∀ c, s.1.calls c = .returned → s.2.flushes (.call c) = .idle

theorem CoversBefore.step (h : CoversBefore s)
    (hs : ((system maxBufferSize).restrict Undisturbed).Reachable s)
    {a : Option QueueEvent × Option BufferEvent}
    (hu : ((system maxBufferSize).restrict Undisturbed).Step s a u) : CoversBefore u := by
  obtain ⟨⟨htogether, hqueue, hbuffers⟩, hundisturbed⟩ := hu
  obtain ⟨q, b⟩ := a
  constructor
  case covers =>
    intro c hc
    by_cases hcall : b = some (.flush (.call c) .call)
    · subst hcall
      exact Buffers.Covers.call (Buffers.flushBuffers_effect (Lts.stepOption_some.mp hbuffers))
    · -- the call was past its watermark before
      obtain ⟨hbefore, hold⟩ : u.1.before c = s.1.before c ∧ (s.1.calls c).resumed = true := by
        cases q with
        | none =>
            rw [Lts.stepOption_none.mp hqueue] at hc ⊢
            exact ⟨rfl, hc⟩
        | some q =>
            obtain ⟨hbefore, hold⟩ := PendingTraces.resumed_step (Lts.stepOption_some.mp hqueue) hc
            refine ⟨hbefore, hold.resolve_right fun hpartners => hcall ?_⟩
            have hb : b ∈ q.partners := htogether
            rw [hpartners] at hb
            exact List.mem_singleton.mp hb
      rw [hbefore]
      cases b with
      | none =>
          rw [Lts.stepOption_none.mp hbuffers]
          exact h.covers c hold
      | some b =>
          refine (h.covers c hold).step (Buffers.tasksOwned hs.of_restrict.right_of_sync) rfl
            (fun t ht => (before_placed hs hold ht).2.2.2) ?_ (hundisturbed.locksAlone c)
            (Lts.stepOption_some.mp hbuffers)
          rintro rfl
          exact hcall rfl
  case idle =>
    intro c hc
    -- a call that had returned before does not call `FlushBuffers` again
    have hstay : s.1.calls c = .returned → b ≠ some (.flush (.call c) .call) →
        u.2.flushes (.call c) = .idle := by
      intro hold hcall
      cases b with
      | none =>
          rw [Lts.stepOption_none.mp hbuffers]
          exact h.idle c hold
      | some b =>
          refine Buffers.idle_step (h.idle c hold) ?_ (Lts.stepOption_some.mp hbuffers)
          rintro rfl
          exact hcall rfl
    cases q with
    | none =>
        rw [Lts.stepOption_none.mp hqueue] at hc
        refine hstay hc ?_
        rintro rfl
        simp [together, BufferEvent.alone] at htogether
    | some q =>
        have hb : b ∈ q.partners := htogether
        rcases PendingTraces.returned_step (Lts.stepOption_some.mp hqueue) hc with
          ⟨hold, hpartner⟩ | hpartners
        · exact hstay hold fun hcall => hpartner (hcall ▸ hb)
        · rw [hpartners] at hb
          obtain rfl := List.mem_singleton.mp hb
          exact Buffers.idle_of_return
            (Buffers.flushBuffers_effect (Lts.stepOption_some.mp hbuffers))

/-- The invariant of the flushes holds in every undisturbed run. -/
theorem coversBefore (hs : ((system maxBufferSize).restrict Undisturbed).Reachable s) :
    CoversBefore s := by
  refine hs.invariant_of_reachable (I := CoversBefore) ?_ fun s a u hr h hu => h.step hr hu
  rintro ⟨q, b⟩ ⟨h₁, h₂⟩
  obtain rfl : q = {} := h₁
  obtain rfl : b = {} := h₂
  constructor <;> simp [CallPc.resumed]

/-- What a call of `FlushTracesAsync` is for: the traces that were enqueued before it have had their
send attempt or are counted as dropped, and none of them is queued, in `SerializeTrace`, in a buffer
or in a send. -/
def Flushed (s : PendingTraces × Buffers) (c : CallId) : Prop :=
  ∀ t ∈ s.1.before c, t ∈ s.2.books.counted ∧ .trace t ∉ s.1.queue ∧ s.1.loop ≠ .serialize t ∧
    ∀ side, t ∉ (s.2.buffers side).traces

theorem pending_subset (b : SpanBuffer) : b.pending ⊆ b.traces := by
  unfold SpanBuffer.pending
  split
  · exact List.nil_subset _
  · exact List.Subset.refl _

/-- A call of `FlushTracesAsync` up to its `await`. -/
def flushCallScript (c : CallId) : List (Option QueueEvent × Option BufferEvent) :=
  onQueue [.flush c .call, .flush c .seesRunning, .flush c .enqueue, .flush c .set]

/-- The serialization thread calls the watermark of a call of `FlushTracesAsync`, which goes on to
`FlushBuffers` and up to its first flush. -/
def resumeScript (c : CallId) : List (Option QueueEvent × Option BufferEvent) :=
  onQueue [.loop (.dequeueCallback c), .loop .callback] ++
    (some (.flush c .resumes), some (.flush (.call c) .call)) ::
    onBuffers [.flush (.call c) .readActive, .flush (.call c) .testFull]

/-- A call of `FlushBuffers` flushes an empty buffer with the task `k`. -/
def flushEmptyScript (c : CallId) (k : TaskId) :
    List (Option QueueEvent × Option BufferEvent) :=
  onBuffers [.flush (.call c) .readTask, .flush (.call c) .resume, .flush (.call c) (.start k),
    .task k .enterLock, .task k .lock, .task k .test, .task k .enterClear, .task k .clear,
    .flush (.call c) .assign, .flush (.call c) .complete]

/-- A run in which a call of `FlushTracesAsync` sends the one trace there is, and returns. -/
def flushScript : List (Option QueueEvent × Option BufferEvent) :=
  writeScript 0 ++ serializeScript 0 (some 10) ++ flushCallScript 0 ++ resumeScript 0 ++
    flushEmptyScript 0 0 ++
    onBuffers [.flush (.call 0) .readTask, .flush (.call 0) .resume, .flush (.call 0) (.start 1),
      .task 1 .enterLock, .task 1 .lock, .task 1 .test, .flush (.call 0) .assign,
      .task 1 (.sent .succeeded), .task 1 .enterClear, .task 1 .clear,
      .flush (.call 0) .complete] ++
    [(some (.flush 0 .returns), some (.flush (.call 0) .return))]

/-- A run with two calls of `FlushTracesAsync`: both find the flush task of the front buffer
completed, the first one locks the buffer and sends the trace, and the second one finds the buffer
locked and returns. -/
def overtakenScript : List (Option QueueEvent × Option BufferEvent) :=
  writeScript 0 ++ serializeScript 0 (some 10) ++ flushCallScript 0 ++ flushCallScript 1 ++
    resumeScript 0 ++ resumeScript 1 ++ flushEmptyScript 0 0 ++ flushEmptyScript 1 1 ++
    onBuffers [.flush (.call 0) .readTask, .flush (.call 0) .resume, .flush (.call 1) .readTask,
      .flush (.call 1) .resume, .flush (.call 0) (.start 2), .task 2 .enterLock, .task 2 .lock,
      .task 2 .test, .flush (.call 0) .assign, .flush (.call 1) (.start 3), .task 3 .enterLock,
      .task 3 .lock, .flush (.call 1) .assign, .flush (.call 1) .complete] ++
    [(some (.flush 1 .returns), some (.flush (.call 1) .return))]

end AgentWriter

end DdTrace.Agent
