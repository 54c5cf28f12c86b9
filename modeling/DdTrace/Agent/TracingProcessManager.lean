import DdTrace.Lib.Run

/-!
# Keeping a process alive

* `iterate`: one iteration of the loop that starts a process and keeps it alive, with what happened
  in it.
* `Supervision`: the loop with what happened in all its iterations.
* `Right`: what the loop has to be like: a process is started only after a failed check, the failures
  that are counted are the failed starts, and the loop gives up at their maximum.
* `right_iff`: it is so all along a run, exactly if no start times out and no process is found healthy
  while there are failures.

Source: `TracingProcessManager.cs`, `StartProcessWithKeepAlive`, `ProcessMetadata`.
-/

namespace DdTrace.Agent.TracingProcessManager

open DdTrace.Lib

/-- Source: `TracingProcessManager.cs`, `MaxFailures` -/
def maxFailures : Nat := 5

/-- Source: `TracingProcessManager.cs`, `ProcessState` -/
inductive ProcessState
  | neverChecked
  | readyToStart
  | faulted
  | healthy
  deriving DecidableEq, Repr

/-- Source: `TracingProcessManager.cs`, `ProcessMetadata` -/
structure ProcessMetadata where
  /-- `IsBeingManaged`. -/
  isBeingManaged : Bool := false
  /-- `SequentialFailures`. -/
  sequentialFailures : Nat := 0
  /-- `ProcessState`. -/
  processState : ProcessState := .neverChecked
  deriving DecidableEq, Repr

/-! ## What an iteration meets -/

/-- What is found when a started process is looked at. -/
inductive Poll
  /-- `ProcessIsHealthy`. -/
  | healthy
  /-- It is not, and `Process` is null or has exited. -/
  | exited
  /-- It is not, and `HasExited` throws. -/
  | throws
  /-- It is not, and it is still running. -/
  | running
  deriving DecidableEq, Repr

/-- How a start ends. -/
inductive StartOutcome
  | healthy
  | exited
  | threw
  | timedOut
  deriving DecidableEq, Repr

/-- What an iteration meets, if it comes to ask. -/
structure Surroundings where
  /-- The health check at the beginning. -/
  first : Bool
  /-- The health checks on a delay. -/
  delayed : Nat → Bool
  /-- `Process.Start` throws. -/
  startThrows : Bool
  /-- What is found after the start. -/
  polls : Nat → Poll

/-- What happens in an iteration. -/
inductive Event
  | healthCheck (healthy : Bool)
  | start
  | startEnded (outcome : StartOutcome)
  deriving DecidableEq, Repr

/-! ## One iteration -/

/-- The loop of the checks on a delay, with the attempts that are left before it counts down.
Source: `TracingProcessManager.cs`, `while (--attempts > 0)` -/
def delayedChecks (answers : Nat → Bool) : Nat → Nat → ProcessState × List Event
  | attempts + 2, n =>
      if answers n then
        let later := delayedChecks answers (attempts + 1) (n + 1)
        (later.1, .healthCheck true :: later.2)
      else (.readyToStart, [.healthCheck false])
  | _, _ => (.healthy, [])

/-- The state is looked at before a start.
Source: `TracingProcessManager.cs`, `StartProcessWithKeepAlive` -/
def checkBeforeStart (m : ProcessMetadata) (s : Surroundings) : ProcessMetadata × List Event :=
  match m.processState with
  | .neverChecked =>
      if s.first then
        let later := delayedChecks s.delayed 7 0
        ({ m with processState := later.1 }, .healthCheck true :: later.2)
      else ({ m with processState := .readyToStart }, [.healthCheck false])
  | .readyToStart => (m, [])
  | .faulted | .healthy =>
      ({ m with processState := if s.first then .healthy else .readyToStart },
        [.healthCheck s.first])

/-- The loop that looks at a started process until the timeout.
Source: `TracingProcessManager.cs`, `while (timeout > 0)` -/
def watch (polls : Nat → Poll) (timeout n : Nat) : StartOutcome × List Event :=
  if 0 < timeout then
    match polls n with
    | .healthy => (.healthy, [.healthCheck true])
    | .exited => (.exited, [.healthCheck false])
    | .throws => (.threw, [.healthCheck false])
    | .running =>
        let later := watch polls (timeout - 100) (n + 1)
        (later.1, .healthCheck false :: later.2)
  else (.timedOut, [])
termination_by timeout

/-- A start, and how it ends. -/
def Surroundings.start (s : Surroundings) : StartOutcome × List Event :=
  if s.startThrows then (.threw, []) else watch s.polls 2000 0

/-- What a start does to the metadata; an exception is caught. -/
def afterStart (m : ProcessMetadata) : StartOutcome → ProcessMetadata
  | .healthy => { m with sequentialFailures := 0, processState := .healthy }
  | .exited | .threw => { m with processState := .faulted }
  | .timedOut => m

/-- The process is started if it is ready for it. -/
def startIfReady (m : ProcessMetadata) (s : Surroundings) : ProcessMetadata × List Event :=
  if m.processState = .readyToStart then
    (afterStart m s.start.1, .start :: s.start.2 ++ [.startEnded s.start.1])
  else (m, [])

/-- The failures are counted at the end. -/
def countFailure (m : ProcessMetadata) : ProcessMetadata :=
  if m.processState = .faulted then { m with sequentialFailures := m.sequentialFailures + 1 } else m

/-- An iteration of the loop that does not give up.
Source: `TracingProcessManager.cs`, `StartProcessWithKeepAlive` -/
def iterate (m : ProcessMetadata) (s : Surroundings) : ProcessMetadata × List Event :=
  let checked := checkBeforeStart m s
  let started := startIfReady checked.1 s
  (countFailure started.1, checked.2 ++ started.2)

/-! ## The loop with what happened in it -/

/-- The starts that did not reach health since the process was last found healthy. -/
def failedStarts (n : Nat) (history : List Event) : Nat :=
  history.foldl (fun n event =>
    match event with
    | .healthCheck true => 0
    | .startEnded .healthy => n
    | .startEnded _ => n + 1
    | _ => n) n

/-- What happened in one iteration. -/
structure Iteration where
  /-- The failed starts before it. -/
  failedBefore : Nat
  events : List Event
  /-- The loop has given up. -/
  gaveUp : Bool
  /-- The state after it. -/
  stateAfter : ProcessState
  deriving DecidableEq, Repr

/-- The loop, with its failed starts and its iterations, the last one first. -/
structure Supervision where
  metadata : ProcessMetadata
  failed : Nat
  iterations : List Iteration
  deriving DecidableEq, Repr

namespace Supervision

/-- The loop before its first iteration. -/
def begun : Supervision := ⟨{ isBeingManaged := true }, 0, []⟩

/-- The next iteration, if the loop has not returned.
Source: `TracingProcessManager.cs`, `StartProcessWithKeepAlive` -/
def step (o : Supervision) (s : Surroundings) : Supervision :=
  if o.metadata.isBeingManaged = false then o
  else if maxFailures ≤ o.metadata.sequentialFailures then
    ⟨{ o.metadata with isBeingManaged := false, processState := .faulted }, o.failed,
      ⟨o.failed, [], true, .faulted⟩ :: o.iterations⟩
  else
    let after := iterate o.metadata s
    ⟨after.1, failedStarts o.failed after.2,
      ⟨o.failed, after.2, false, after.1.processState⟩ :: o.iterations⟩

/-- A process is started only after a check of the same iteration found it not healthy. -/
def StartsChecked (events : List Event) : Prop :=
  ∀ before after, events = before ++ .start :: after → .healthCheck false ∈ before

/-- The loop is as it should be. -/
structure Right (o : Supervision) : Prop where
  starts : ∀ i ∈ o.iterations, StartsChecked i.events
  counts : o.metadata.sequentialFailures = o.failed
  givesUp : ∀ i ∈ o.iterations, (i.gaveUp = true ↔ i.failedBefore = maxFailures)
  faulted : ∀ i ∈ o.iterations, i.gaveUp = true → i.stateAfter = .faulted

end Supervision

/-- An iteration comes to start the process. -/
def ComesToStart (m : ProcessMetadata) (s : Surroundings) : Prop :=
  match m.processState with
  | .neverChecked => s.first = false ∨ ∃ n < 6, s.delayed n = false
  | .readyToStart => True
  | .faulted | .healthy => s.first = false

/-- No start times out, and no process is found healthy at the beginning while there are failures. -/
def Supervision.Fitting (o : Supervision) (s : Surroundings) : Prop :=
  o.metadata.isBeingManaged = true → o.metadata.sequentialFailures < maxFailures →
    (ComesToStart o.metadata s → s.start.1 ≠ .timedOut) ∧
    (o.metadata.processState ≠ .readyToStart → s.first = true →
      o.metadata.sequentialFailures = 0)

/-! ## The parts of an iteration -/

theorem failedStarts_append (n : Nat) (events more : List Event) :
    failedStarts n (events ++ more) = failedStarts (failedStarts n events) more :=
  List.foldl_append

/-- Checks that succeed change nothing after the first of them. -/
theorem failedStarts_of_healthy {events : List Event} (h : ∀ e ∈ events, e = .healthCheck true) :
    failedStarts 0 events = 0 := by
  induction events with
  | nil => rfl
  | cons e events ih =>
      rw [List.forall_mem_cons] at h
      rw [h.1]
      exact ih h.2

/-- Of the checks on a delay only the last one can fail. -/
theorem delayedChecks_cases (answers : Nat → Bool) (attempts n : Nat) :
    (delayedChecks answers attempts n).1 = .healthy ∧
        (∀ i < attempts - 1, answers (n + i) = true) ∧
        (∀ e ∈ (delayedChecks answers attempts n).2, e = .healthCheck true) ∨
      (delayedChecks answers attempts n).1 = .readyToStart ∧
        (∃ i < attempts - 1, answers (n + i) = false) ∧
        ∃ checks, (delayedChecks answers attempts n).2 = checks ++ [.healthCheck false] ∧
          ∀ e ∈ checks, e = .healthCheck true := by
  induction attempts generalizing n with
  | zero => exact Or.inl ⟨rfl, fun i hi => absurd hi (Nat.not_lt_zero i), fun e he => by cases he⟩
  | succ attempts ih =>
      cases attempts with
      | zero =>
          exact Or.inl ⟨rfl, fun i hi => absurd hi (Nat.not_lt_zero i), fun e he => by cases he⟩
      | succ attempts =>
          rw [delayedChecks]
          by_cases hanswer : answers n = true
          · rw [if_pos hanswer]
            rcases ih (n + 1) with ⟨hstate, hall, hevents⟩ |
              ⟨hstate, ⟨i, hi, hfalse⟩, checks, hchecks, hevents⟩
            · refine Or.inl ⟨hstate, fun i hi => ?_, List.forall_mem_cons.mpr ⟨rfl, hevents⟩⟩
              cases i with
              | zero => exact hanswer
              | succ i =>
                  have hlater := hall i (by omega)
                  rwa [Nat.add_right_comm] at hlater
            · refine Or.inr ⟨hstate, ⟨i + 1, by omega, ?_⟩, .healthCheck true :: checks,
                congrArg (Event.healthCheck true :: ·) hchecks,
                List.forall_mem_cons.mpr ⟨rfl, hevents⟩⟩
              rw [Nat.add_right_comm] at hfalse
              exact hfalse
          · rw [if_neg hanswer]
            exact Or.inr ⟨rfl, ⟨0, by omega, Bool.eq_false_iff.mpr hanswer⟩, [], rfl,
              fun e he => by cases he⟩

/-- What the checks before a start leave behind: the process is healthy and was found so, or it is
ready to start and was found not healthy last. -/
structure Checked (m : ProcessMetadata) (s : Surroundings) : Prop where
  sequentialFailures :
    (checkBeforeStart m s).1.sequentialFailures = m.sequentialFailures
  isBeingManaged : (checkBeforeStart m s).1.isBeingManaged = m.isBeingManaged
  noStart : .start ∉ (checkBeforeStart m s).2
  /-- The process is started. -/
  ready : ComesToStart m s → (checkBeforeStart m s).1.processState = .readyToStart ∧
    .healthCheck false ∈ (checkBeforeStart m s).2
  /-- The process is not started. -/
  healthy : ¬ComesToStart m s → (checkBeforeStart m s).1.processState = .healthy ∧ s.first = true
  /-- The failed starts. -/
  failed : ∀ n, failedStarts n (checkBeforeStart m s).2 = if s.first then 0 else n

/-- The check of a process that was started before. -/
theorem checked_of_tried {m : ProcessMetadata} {s : Surroundings}
    (heq : checkBeforeStart m s =
      ({ m with processState := if s.first then .healthy else .readyToStart },
        [.healthCheck s.first])) (hcomes : ComesToStart m s ↔ s.first = false) : Checked m s := by
  refine ⟨by rw [heq], by rw [heq], ?_, fun hstart => ?_, fun hnot => ?_, fun n => ?_⟩
  · rw [heq]
    intro hmem
    cases List.mem_singleton.mp hmem
  · rw [heq, hcomes.mp hstart]
    exact ⟨rfl, List.mem_cons_self⟩
  · have hfirst : s.first = true := by
      rw [← Bool.not_eq_false]
      exact mt hcomes.mpr hnot
    rw [heq, hfirst]
    exact ⟨rfl, rfl⟩
  · rw [heq]
    cases s.first with
    | true => rfl
    | false => rfl

/-- The check of a process that is looked at for the first time and not healthy. -/
theorem checked_of_unhealthy {m : ProcessMetadata} {s : Surroundings}
    (hstate : m.processState = .neverChecked) (hfirst : ¬s.first = true) : Checked m s := by
  have heq : checkBeforeStart m s =
      ({ m with processState := .readyToStart }, [.healthCheck false]) := by
    rw [checkBeforeStart, hstate]
    exact if_neg hfirst
  have hstart : ComesToStart m s := by
    rw [ComesToStart, hstate]
    exact Or.inl (Bool.eq_false_iff.mpr hfirst)
  refine ⟨by rw [heq], by rw [heq], ?_, fun _ => ?_, fun hnot => absurd hstart hnot,
    fun n => ?_⟩
  · rw [heq]
    intro hmem
    cases List.mem_singleton.mp hmem
  · rw [heq]
    exact ⟨rfl, List.mem_cons_self⟩
  · rw [heq, if_neg hfirst]
    rfl

/-- The checks of a process that is healthy when it is looked at for the first time. -/
theorem checked_of_healthy {m : ProcessMetadata} {s : Surroundings}
    (hstate : m.processState = .neverChecked) (hfirst : s.first = true) : Checked m s := by
  have heq : checkBeforeStart m s =
      ({ m with processState := (delayedChecks s.delayed 7 0).1 },
        .healthCheck true :: (delayedChecks s.delayed 7 0).2) := by
    rw [checkBeforeStart, hstate]
    exact if_pos hfirst
  have hcomes : ComesToStart m s ↔ ∃ n < 6, s.delayed n = false := by
    rw [ComesToStart, hstate]
    exact or_iff_right (by rw [hfirst]; exact Bool.true_eq_false.mp)
  rcases delayedChecks_cases s.delayed 7 0 with ⟨hlater, hall, hevents⟩ |
    ⟨hlater, ⟨i, hi, hfalse⟩, checks, hchecks, hevents⟩
  · have hnot : ¬ComesToStart m s := by
      rw [hcomes]
      rintro ⟨i, hi, hfalse⟩
      have htrue := hall i hi
      rw [Nat.zero_add, hfalse] at htrue
      cases htrue
    refine ⟨by rw [heq], by rw [heq], ?_, fun hstart => absurd hstart hnot, fun _ => ?_, ?_⟩
    · rw [heq]
      rintro (_ | ⟨_, hmem⟩)
      cases hevents _ hmem
    · rw [heq]
      exact ⟨hlater, hfirst⟩
    · intro n
      rw [heq, if_pos hfirst]
      exact failedStarts_of_healthy hevents
  · have hstart : ComesToStart m s := by
      rw [hcomes]
      rw [Nat.zero_add] at hfalse
      exact ⟨i, hi, hfalse⟩
    refine ⟨by rw [heq], by rw [heq], ?_, fun _ => ?_, fun hnot => absurd hstart hnot, ?_⟩
    · rw [heq, hchecks]
      rintro (_ | ⟨_, hmem⟩)
      rcases List.mem_append.mp hmem with hmem | hmem
      · cases hevents _ hmem
      · cases List.mem_singleton.mp hmem
    · rw [heq, hchecks]
      exact ⟨hlater, List.mem_cons_of_mem _ (List.mem_append_right _ List.mem_cons_self)⟩
    · intro n
      rw [heq, hchecks, if_pos hfirst]
      show failedStarts 0 (checks ++ [.healthCheck false]) = 0
      rw [failedStarts_append, failedStarts_of_healthy hevents]
      rfl

/-- **The checks before a start.** -/
theorem checked (m : ProcessMetadata) (s : Surroundings) (h : m.processState ≠ .readyToStart) :
    Checked m s := by
  cases hstate : m.processState with
  | readyToStart => exact absurd hstate h
  | neverChecked =>
      by_cases hfirst : s.first = true
      · exact checked_of_healthy hstate hfirst
      · exact checked_of_unhealthy hstate hfirst
  | faulted =>
      apply checked_of_tried
      · rw [checkBeforeStart, hstate]
      · rw [ComesToStart, hstate]
  | healthy =>
      apply checked_of_tried
      · rw [checkBeforeStart, hstate]
      · rw [ComesToStart, hstate]

/-- What is found after a start: the process at last, or never. -/
theorem failedStarts_watch (polls : Nat → Poll) (timeout i n : Nat) :
    failedStarts n (watch polls timeout i).2 =
      if (watch polls timeout i).1 = .healthy then 0 else n := by
  induction timeout using Nat.strongRecOn generalizing i with
  | _ timeout ih =>
      rw [watch]
      by_cases htimeout : 0 < timeout
      · rw [if_pos htimeout]
        cases polls i with
        | healthy => rfl
        | exited => rfl
        | throws => rfl
        | running => exact ih (timeout - 100) (Nat.sub_lt htimeout (by decide)) (i + 1)
      · rw [if_neg htimeout]
        rfl

/-- The failed starts after a start. -/
theorem failedStarts_start (s : Surroundings) (n : Nat) :
    failedStarts n (.start :: s.start.2 ++ [.startEnded s.start.1]) =
      if s.start.1 = .healthy then 0 else n + 1 := by
  have hstart : failedStarts n s.start.2 = if s.start.1 = .healthy then 0 else n := by
    rw [Surroundings.start]
    split
    · rfl
    · exact failedStarts_watch s.polls 2000 0 n
  rw [List.cons_append]
  show failedStarts n (s.start.2 ++ [.startEnded s.start.1]) = _
  rw [failedStarts_append, hstart]
  cases s.start.1 with
  | healthy => rfl
  | exited => rfl
  | threw => rfl
  | timedOut => rfl

/-- A start counts as a failure, but for one that times out. -/
theorem countFailure_afterStart {m : ProcessMetadata} (h : m.processState = .readyToStart)
    (outcome : StartOutcome) :
    (countFailure (afterStart m outcome)).sequentialFailures =
        (match outcome with
          | .healthy => 0
          | .exited | .threw => m.sequentialFailures + 1
          | .timedOut => m.sequentialFailures) ∧
      (countFailure (afterStart m outcome)).isBeingManaged = m.isBeingManaged ∧
      (countFailure (afterStart m outcome)).processState =
        (match outcome with
          | .healthy => .healthy
          | .exited | .threw => .faulted
          | .timedOut => .readyToStart) := by
  cases outcome with
  | healthy => exact ⟨rfl, rfl, rfl⟩
  | exited => exact ⟨rfl, rfl, rfl⟩
  | threw => exact ⟨rfl, rfl, rfl⟩
  | timedOut =>
      have hsame : countFailure m = m := by
        rw [countFailure, h]
        rfl
      rw [afterStart, hsame, h]
      exact ⟨rfl, rfl, rfl⟩

/-! ## Starts and checks -/

namespace Supervision

theorem startsChecked_of_notMem {events : List Event} (h : .start ∉ events) :
    StartsChecked events := by
  rintro before after rfl
  exact absurd (List.mem_append_right before List.mem_cons_self) h

theorem startsChecked_append {events : List Event} (h : .start ∉ events)
    (hfalse : .healthCheck false ∈ events) (more : List Event) :
    StartsChecked (events ++ more) := by
  intro before after heq
  rcases List.append_eq_append_iff.mp heq with ⟨middle, rfl, -⟩ | ⟨middle, rfl, hmiddle⟩
  · exact List.mem_append_left middle hfalse
  · cases middle with
    | nil =>
        rw [List.append_nil] at hfalse
        exact hfalse
    | cons e middle =>
        obtain ⟨rfl, -⟩ := List.cons.inj hmiddle
        exact absurd (List.mem_append_right before List.mem_cons_self) h

end Supervision

/-! ## An iteration -/

variable {m : ProcessMetadata} {s : Surroundings}

/-- An iteration that finds the process healthy. -/
theorem iterate_of_healthy (hstate : m.processState ≠ .readyToStart) (h : ¬ComesToStart m s) :
    (iterate m s).1.sequentialFailures = m.sequentialFailures ∧
      (iterate m s).1.isBeingManaged = m.isBeingManaged ∧
      (iterate m s).1.processState = .healthy ∧ s.first = true ∧
      (∀ n, failedStarts n (iterate m s).2 = 0) ∧ Supervision.StartsChecked (iterate m s).2 := by
  have hchecked := checked m s hstate
  obtain ⟨hhealthy, hfirst⟩ := hchecked.healthy h
  have hstart : startIfReady (checkBeforeStart m s).1 s = ((checkBeforeStart m s).1, []) := by
    rw [startIfReady, hhealthy]
    rfl
  have hcount : countFailure (checkBeforeStart m s).1 = (checkBeforeStart m s).1 := by
    rw [countFailure, hhealthy]
    rfl
  have heq : iterate m s = checkBeforeStart m s := by
    rw [iterate]
    simp only [hstart, hcount, List.append_nil]
  rw [heq]
  refine ⟨hchecked.sequentialFailures, hchecked.isBeingManaged, hhealthy, hfirst, fun n => ?_,
    Supervision.startsChecked_of_notMem hchecked.noStart⟩
  rw [hchecked.failed, if_pos hfirst]

/-- An iteration that starts the process. -/
theorem iterate_of_start (hstate : m.processState ≠ .readyToStart) (h : ComesToStart m s) :
    (iterate m s).1.sequentialFailures =
        (match s.start.1 with
          | .healthy => 0
          | .exited | .threw => m.sequentialFailures + 1
          | .timedOut => m.sequentialFailures) ∧
      (iterate m s).1.isBeingManaged = m.isBeingManaged ∧
      (iterate m s).1.processState =
        (match s.start.1 with
          | .healthy => .healthy
          | .exited | .threw => .faulted
          | .timedOut => .readyToStart) ∧
      (∀ n, failedStarts n (iterate m s).2 =
        if s.start.1 = .healthy then 0 else (if s.first then 0 else n) + 1) ∧
      Supervision.StartsChecked (iterate m s).2 := by
  have hchecked := checked m s hstate
  obtain ⟨hready, hfalse⟩ := hchecked.ready h
  have hstart : startIfReady (checkBeforeStart m s).1 s =
      (afterStart (checkBeforeStart m s).1 s.start.1,
        .start :: s.start.2 ++ [.startEnded s.start.1]) := if_pos hready
  have heq : iterate m s =
      (countFailure (afterStart (checkBeforeStart m s).1 s.start.1),
        (checkBeforeStart m s).2 ++ (.start :: s.start.2 ++ [.startEnded s.start.1])) := by
    rw [iterate]
    simp only [hstart]
  obtain ⟨hfailures, hmanaged, hafter⟩ := countFailure_afterStart hready s.start.1
  rw [heq]
  refine ⟨?_, hmanaged.trans hchecked.isBeingManaged, hafter, fun n => ?_,
    Supervision.startsChecked_append hchecked.noStart hfalse _⟩
  · rw [hfailures, hchecked.sequentialFailures]
  · rw [failedStarts_append, hchecked.failed, failedStarts_start]

/-! ## Runs -/

namespace Supervision

/-- A loop in which no start timed out. -/
structure Settled (o : Supervision) : Prop where
  state : o.metadata.isBeingManaged = true → o.metadata.processState ≠ .readyToStart
  fresh : o.metadata.processState = .neverChecked → o.metadata.sequentialFailures = 0
  bound : o.metadata.sequentialFailures ≤ maxFailures

theorem settled_begun : begun.Settled where
  state := fun _ => by decide
  fresh := fun _ => rfl
  bound := Nat.zero_le _

theorem right_begun : begun.Right where
  starts := fun i h => by cases h
  counts := rfl
  givesUp := fun i h => by cases h
  faulted := fun i h => by cases h

variable {o : Supervision}

/-- A step of a loop that goes on. -/
theorem step_of_running (s : Surroundings) (hmanaged : o.metadata.isBeingManaged = true)
    (hfew : o.metadata.sequentialFailures < maxFailures) :
    o.step s = ⟨(iterate o.metadata s).1, failedStarts o.failed (iterate o.metadata s).2,
      ⟨o.failed, (iterate o.metadata s).2, false, (iterate o.metadata s).1.processState⟩ ::
        o.iterations⟩ := by
  rw [step, if_neg (by rw [hmanaged]; exact Bool.true_eq_false.mp), if_neg (Nat.not_le.mpr hfew)]

/-- The step in which the loop gives up. -/
theorem step_of_givingUp (s : Surroundings) (hmanaged : o.metadata.isBeingManaged = true)
    (hmany : maxFailures ≤ o.metadata.sequentialFailures) :
    o.step s = ⟨{ o.metadata with isBeingManaged := false, processState := .faulted }, o.failed,
      ⟨o.failed, [], true, .faulted⟩ :: o.iterations⟩ := by
  rw [step, if_neg (by rw [hmanaged]; exact Bool.true_eq_false.mp), if_pos hmany]

/-- A loop that has returned takes no step. -/
theorem step_of_ended (s : Surroundings) (hended : ¬o.metadata.isBeingManaged = true) :
    o.step s = o := if_pos (Bool.eq_false_iff.mpr hended)

/-- A fitting step leads to a settled loop. -/
theorem Settled.step (h : o.Settled) {s : Surroundings} (hfit : o.Fitting s) :
    (o.step s).Settled := by
  by_cases hmanaged : o.metadata.isBeingManaged = true
  · by_cases hfew : o.metadata.sequentialFailures < maxFailures
    · rw [step_of_running s hmanaged hfew]
      obtain ⟨hstart, -⟩ := hfit hmanaged hfew
      by_cases hcomes : ComesToStart o.metadata s
      · obtain ⟨hfailures, -, hstate, -, -⟩ := iterate_of_start (h.state hmanaged) hcomes
        have hended : (iterate o.metadata s).1.processState = .healthy ∨
            (iterate o.metadata s).1.processState = .faulted := by
          rw [hstate]
          cases hout : s.start.1 with
          | healthy => exact Or.inl rfl
          | exited => exact Or.inr rfl
          | threw => exact Or.inr rfl
          | timedOut => exact absurd hout (hstart hcomes)
        refine ⟨fun _ => ?_, fun hnever => ?_, ?_⟩
        · rcases hended with hended | hended
          · rw [hended]
            exact ProcessState.noConfusion
          · rw [hended]
            exact ProcessState.noConfusion
        · have hnever : (iterate o.metadata s).1.processState = .neverChecked := hnever
          rw [hnever] at hended
          rcases hended with hended | hended
          · cases hended
          · cases hended
        · rw [hfailures]
          cases s.start.1 with
          | healthy => exact Nat.zero_le _
          | exited => exact hfew
          | threw => exact hfew
          | timedOut => exact Nat.le_of_lt hfew
      · obtain ⟨hfailures, -, hstate, -, -, -⟩ := iterate_of_healthy (h.state hmanaged) hcomes
        refine ⟨fun _ => ?_, fun hnever => ?_, ?_⟩
        · rw [hstate]
          exact ProcessState.noConfusion
        · rw [hstate] at hnever
          cases hnever
        · rw [hfailures]
          exact h.bound
    · rw [step_of_givingUp s hmanaged (Nat.not_lt.mp hfew)]
      exact ⟨fun hfalse => absurd hfalse Bool.false_ne_true, ProcessState.noConfusion, h.bound⟩
  · rw [step_of_ended s hmanaged]
    exact h

/-- What an iteration of a loop that goes on does to what is right. -/
theorem right_cons_iff (h : o.Right) {m : ProcessMetadata} {failed : Nat} {i : Iteration}
    (hstarts : StartsChecked i.events) (hgivesUp : i.gaveUp = true ↔ i.failedBefore = maxFailures)
    (hfaulted : i.gaveUp = true → i.stateAfter = .faulted) :
    Right ⟨m, failed, i :: o.iterations⟩ ↔ m.sequentialFailures = failed := by
  constructor
  · intro hright
    exact hright.counts
  · intro hcounts
    exact ⟨List.forall_mem_cons.mpr ⟨hstarts, h.starts⟩, hcounts,
      List.forall_mem_cons.mpr ⟨hgivesUp, h.givesUp⟩,
      List.forall_mem_cons.mpr ⟨hfaulted, h.faulted⟩⟩

/-- **A step keeps the loop right** exactly if it is fitting. -/
theorem Settled.right_step_iff (h : o.Settled) (hright : o.Right) (s : Surroundings) :
    (o.step s).Right ↔ o.Fitting s := by
  by_cases hmanaged : o.metadata.isBeingManaged = true
  · by_cases hfew : o.metadata.sequentialFailures < maxFailures
    · have hready := h.state hmanaged
      have hnot : false = true ↔ o.failed = maxFailures := by
        rw [← hright.counts]
        exact iff_of_false Bool.false_ne_true (Nat.ne_of_lt hfew)
      have hfitting : o.Fitting s ↔ (ComesToStart o.metadata s → s.start.1 ≠ .timedOut) ∧
          (s.first = true → o.metadata.sequentialFailures = 0) := by
        constructor
        · intro hfit
          obtain ⟨hstart, hfirst⟩ := hfit hmanaged hfew
          exact ⟨hstart, hfirst hready⟩
        · intro hfit _ _
          exact ⟨hfit.1, fun _ => hfit.2⟩
      rw [step_of_running s hmanaged hfew, hfitting]
      by_cases hcomes : ComesToStart o.metadata s
      · obtain ⟨hfailures, -, -, hfailed, hchecked⟩ := iterate_of_start hready hcomes
        rw [right_cons_iff hright hchecked hnot fun hfalse => absurd hfalse Bool.false_ne_true,
          hfailures, hfailed, ← hright.counts]
        -- a process that is started after it was found healthy was never checked before
        have hfirst : s.first = true → o.metadata.sequentialFailures = 0 := by
          intro hfirst
          apply h.fresh
          cases hstate : o.metadata.processState with
          | neverChecked => rfl
          | readyToStart => exact absurd hstate hready
          | faulted =>
              rw [ComesToStart, hstate, hfirst] at hcomes
              cases hcomes
          | healthy =>
              rw [ComesToStart, hstate, hfirst] at hcomes
              cases hcomes
        have hbefore : (if s.first = true then 0 else o.metadata.sequentialFailures) =
            o.metadata.sequentialFailures := by
          split
          case isTrue htrue => exact (hfirst htrue).symm
          case isFalse => rfl
        rw [hbefore]
        cases hout : s.start.1 with
        | healthy => exact iff_of_true rfl ⟨fun _ => StartOutcome.noConfusion, hfirst⟩
        | exited => exact iff_of_true rfl ⟨fun _ => StartOutcome.noConfusion, hfirst⟩
        | threw => exact iff_of_true rfl ⟨fun _ => StartOutcome.noConfusion, hfirst⟩
        | timedOut =>
            refine iff_of_false ?_ fun hfit => hfit.1 hcomes rfl
            exact Nat.ne_of_lt (Nat.lt_succ_self _)
      · obtain ⟨hfailures, -, -, hfirst, hfailed, hchecked⟩ := iterate_of_healthy hready hcomes
        rw [right_cons_iff hright hchecked hnot fun hfalse => absurd hfalse Bool.false_ne_true,
          hfailures, hfailed]
        constructor
        · intro hzero
          exact ⟨fun hstart => absurd hstart hcomes, fun _ => hzero⟩
        · intro hfit
          exact hfit.2 hfirst
    · have hmax : o.failed = maxFailures := by
        rw [← hright.counts]
        exact Nat.le_antisymm h.bound (Nat.not_lt.mp hfew)
      rw [step_of_givingUp s hmanaged (Nat.not_lt.mp hfew),
        right_cons_iff hright (startsChecked_of_notMem List.not_mem_nil)
        (iff_of_true rfl hmax) fun _ => rfl]
      exact iff_of_true hright.counts fun _ hlt => absurd hlt hfew
  · rw [step_of_ended s hmanaged]
    exact iff_of_true hright fun hrunning => absurd hrunning hmanaged

/-- **The loop is as it should be** all along a run, exactly if every step of the run is fitting: no
start times out, and no process is found healthy at the beginning while there are failures. -/
theorem right_iff (run : List Surroundings) :
    (∀ pre, pre <+: run → (pre.foldl step begun).Right) ↔
      ∀ pre s, pre ++ [s] <+: run → (pre.foldl step begun).Fitting s :=
  foldl_exact_iff_along settled_begun right_begun (fun _ _ h _ hfit => h.step hfit)
    (fun _ s h hright => h.right_step_iff hright s) run

/-- A process that is running and not healthy all the time. -/
def slow : Surroundings := ⟨false, fun _ => false, false, fun _ => .running⟩

/-- Nothing else is found of it until the timeout. -/
theorem watch_running (timeout n : Nat) : (watch (fun _ => .running) timeout n).1 = .timedOut := by
  induction timeout using Nat.strongRecOn generalizing n with
  | _ timeout ih =>
      rw [watch]
      by_cases htimeout : 0 < timeout
      · rw [if_pos htimeout]
        exact ih (timeout - 100) (Nat.sub_lt htimeout (by decide)) (n + 1)
      · rw [if_neg htimeout]

/-- **A start that times out** is not counted, and the process is started again without a check. -/
theorem not_right_slow :
    ¬([slow].foldl step begun).Right ∧
      ∃ i rest, ([slow, slow].foldl step begun).iterations = i :: rest ∧
        ¬StartsChecked i.events := by
  have hout : slow.start.1 = .timedOut := watch_running 2000 0
  have hcomes : ComesToStart begun.metadata slow := Or.inl rfl
  obtain ⟨hfailures, hmanaged, hstate, hfailed, -⟩ :=
    iterate_of_start (settled_begun.state rfl) hcomes
  rw [hout] at hfailures hstate
  have hfirst := step_of_running slow (o := begun) rfl (by decide)
  have hrun : [slow].foldl step begun = begun.step slow := rfl
  have hrun' : [slow, slow].foldl step begun = (begun.step slow).step slow := rfl
  constructor
  · intro hright
    have hcounts := hright.counts
    rw [hrun, hfirst] at hcounts
    have hcounts : 0 = failedStarts 0 (iterate begun.metadata slow).2 :=
      hfailures.symm.trans hcounts
    rw [hfailed, hout] at hcounts
    cases hcounts
  · have hfew : (iterate begun.metadata slow).1.sequentialFailures < maxFailures := by
      rw [hfailures]
      decide
    have hready : checkBeforeStart (iterate begun.metadata slow).1 slow =
        ((iterate begun.metadata slow).1, []) := by
      rw [checkBeforeStart, hstate]
    have hevents : (iterate (iterate begun.metadata slow).1 slow).2 =
        .start :: slow.start.2 ++ [.startEnded slow.start.1] := by
      rw [iterate]
      simp only [hready, startIfReady, hstate, if_true, List.nil_append]
    rw [hrun', hfirst, step_of_running slow hmanaged hfew, hevents]
    refine ⟨_, _, rfl, fun hchecked => ?_⟩
    cases hchecked [] _ rfl

end Supervision

end DdTrace.Agent.TracingProcessManager
