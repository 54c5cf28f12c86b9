import DdTrace.Lib.Tasks
import DdTrace.Lib.TransitionSystem

/-!
# Continuations of instrumented methods

When an instrumented method returns a task, the end of the method is the end of the task: the
integration is called then, and the caller gets a task that ends afterwards.

* `Callback`, `PassesThrough`: the integration.
* `Generator`: the four generators, each with its `setContinuation` and its `continuation`.
* `World`, `step`: a task, the call of `SetContinuation` and the continuation, in any order.

The integration is a function of the value and the exception; the instance and the state it is
called with are those of the call. What is only logged is left out.

Source: `TaskContinuationGenerator.cs`, ``TaskContinuationGenerator`1.cs``,
`ValueTaskContinuationGenerator.cs` and ``ValueTaskContinuationGenerator`1.cs``.
-/

namespace DdTrace.CallTarget

open DdTrace.Lib DdTrace.Lib.Tasks

/-! ## The integration -/

/-- `OnAsyncMethodEnd` of an integration, with a value and an exception or `null`. -/
abbrev Callback (ρ ε : Type) := ρ → Option (Exn ε) → Except (Exn ε) ρ

/-- The integration returns the value it is given, or throws. -/
def PassesThrough {ρ ε : Type} (continuation : Callback ρ ε) : Prop :=
  ∀ value exception result, continuation value exception = .ok result → result = value

/-- A call of the integration. -/
abbrev Call (ρ ε : Type) := ρ × Option (Exn ε)

/-- What the generators do. -/
abbrev Run (ρ ε : Type) := Effect (Call ρ ε) ε

/-- What `SetContinuation` hands back. -/
inductive Handed (ρ ε : Type)
  /-- The value it was given. -/
  | returnValue
  /-- A task that goes on when the given one has ended. -/
  | continuing
  /-- A task that has ended. -/
  | ended (outcome : Outcome ρ ε)
  deriving Repr

section Generators

variable {ρ ε : Type} [Inhabited ρ]

/-- Call the integration. -/
def invoke (continuation : Callback ρ ε) (value : ρ) (exception : Option (Exn ε)) : Run ρ ε ρ :=
  Effect.call (value, exception) (continuation value exception)

/-! ## Tasks without a result -/

namespace TaskContinuationGenerator

/-- The value is `null` or a task, which runs (`none`) or has ended.
Source: `TaskContinuationGenerator.cs`, `SetContinuation` -/
def setContinuation (continuation : Option (Callback Unit ε))
    (returnValue : Option (Option (Outcome Unit ε))) (exception : Option (Exn ε)) :
    Run Unit ε (Handed Unit ε) :=
  match continuation with
  | none => pure .returnValue
  | some continuation =>
      match exception, returnValue with
      | none, some (some (.ranToCompletion _)) => do
          let _ ← invoke continuation () none
          pure .returnValue
      | none, some _ => pure .continuing
      | exception, _ => do
          let _ ← invoke continuation () exception
          pure .returnValue

/-- Source: `TaskContinuationGenerator.cs`, `ContinuationAction` -/
def continuationAction (continuation : Callback Unit ε) (previousTask : Outcome Unit ε) :
    Run Unit ε Unit := do
  let _ ← tryCatch (invoke continuation () previousTask.exception) fun _ => pure ()
  match previousTask.exception with
  | some exception => throw exception.getBaseException
  | none => pure ()

end TaskContinuationGenerator

/-! ## Tasks with a result -/

namespace TaskOfResultContinuationGenerator

/-- Source: ``TaskContinuationGenerator`1.cs``, `SetContinuation` -/
def setContinuation (continuation : Option (Callback ρ ε))
    (returnValue : Option (Option (Outcome ρ ε))) (exception : Option (Exn ε)) :
    Run ρ ε (Handed ρ ε) :=
  match continuation with
  | none => pure .returnValue
  | some continuation =>
      match exception, returnValue with
      | none, some (some (.ranToCompletion result)) => do
          let result ← invoke continuation result none
          pure (.ended (.ranToCompletion result))
      | none, some _ => pure .continuing
      | exception, _ => do
          let _ ← invoke continuation default exception
          pure .returnValue

/-- Source: ``TaskContinuationGenerator`1.cs``, `ContinuationAction` -/
def continuationAction (continuation : Callback ρ ε) (previousTask : Outcome ρ ε) : Run ρ ε ρ :=
  match previousTask.exception with
  | none =>
      tryCatch (do
          let result ← Effect.ofExcept previousTask.result
          invoke continuation result none)
        fun _ => Effect.ofExcept previousTask.result
  | some exception => do
      let _ ← tryCatch (invoke continuation default (some exception)) fun _ => pure default
      throw exception.getBaseException

end TaskOfResultContinuationGenerator

/-! ## Value tasks without a result -/

namespace ValueTaskContinuationGenerator

/-- Behind the `await`.
Source: `ValueTaskContinuationGenerator.cs`, `InnerSetValueTaskContinuation` -/
def innerSetValueTaskContinuation (continuation : Callback Unit ε)
    (previousValueTask : Outcome Unit ε) : Run Unit ε Unit :=
  match previousValueTask.await with
  | .error ex => do
      let _ ← tryCatch (invoke continuation () (some ex)) fun _ => pure ()
      throw ex
  | .ok _ => do
      let _ ← tryCatch (invoke continuation () none) fun _ => pure ()
      pure ()

/-- A value task that has ended is continued at once.
Source: `ValueTaskContinuationGenerator.cs`, `SetContinuation` -/
def setContinuation (continuation : Option (Callback Unit ε))
    (returnValue : Option (Outcome Unit ε)) (exception : Option (Exn ε)) :
    Run Unit ε (Handed Unit ε) :=
  match continuation with
  | none => pure .returnValue
  | some continuation =>
      match exception, returnValue with
      | some exception, _ => do
          let _ ← invoke continuation () (some exception)
          pure .returnValue
      | none, none => pure .continuing
      | none, some previousValueTask => do
          let outcome ← Effect.asTask ofAsyncMethod
            (innerSetValueTaskContinuation continuation previousValueTask)
          pure (.ended outcome)

end ValueTaskContinuationGenerator

/-! ## Value tasks with a result -/

namespace ValueTaskOfResultContinuationGenerator

/-- Behind the `await`.
Source: ``ValueTaskContinuationGenerator`1.cs``, `InnerSetValueTaskContinuation` -/
def innerSetValueTaskContinuation (continuation : Callback ρ ε) (previousValueTask : Outcome ρ ε) :
    Run ρ ε ρ :=
  match previousValueTask.await with
  | .error ex => do
      let _ ← tryCatch (invoke continuation default (some ex)) fun _ => pure default
      throw ex
  | .ok result => tryCatch (invoke continuation result none) fun _ => pure result

/-- A value task that has ended is continued at once.
Source: ``ValueTaskContinuationGenerator`1.cs``, `SetContinuation` -/
def setContinuation (continuation : Option (Callback ρ ε)) (returnValue : Option (Outcome ρ ε))
    (exception : Option (Exn ε)) : Run ρ ε (Handed ρ ε) :=
  match continuation with
  | none => pure .returnValue
  | some continuation =>
      match exception, returnValue with
      | some exception, _ => do
          let _ ← invoke continuation default (some exception)
          pure .returnValue
      | none, none => pure .continuing
      | none, some previousValueTask => do
          let outcome ← Effect.asTask ofAsyncMethod
            (innerSetValueTaskContinuation continuation previousValueTask)
          pure (.ended outcome)

end ValueTaskOfResultContinuationGenerator

end Generators

/-! ## The four generators -/

/-- A generator, by the type of the results of its tasks, which has a `default`. -/
inductive Generator : Type → Type 1
  /-- For `Task`. -/
  | task : Generator Unit
  /-- For `Task<TResult>`. -/
  | taskOfResult {ρ : Type} [Inhabited ρ] : Generator ρ
  /-- For `ValueTask`. -/
  | valueTask : Generator Unit
  /-- For `ValueTask<TResult>`. -/
  | valueTaskOfResult {ρ : Type} [Inhabited ρ] : Generator ρ

namespace Generator

variable {ρ ε : Type}

/-- `SetContinuation` for a task that a method has returned. -/
def setContinuation (continuation : Callback ρ ε) (returnValue : Option (Outcome ρ ε)) :
    Generator ρ → Run ρ ε (Handed ρ ε)
  | task => TaskContinuationGenerator.setContinuation (some continuation) (some returnValue) none
  | taskOfResult =>
      TaskOfResultContinuationGenerator.setContinuation (some continuation) (some returnValue) none
  | valueTask => ValueTaskContinuationGenerator.setContinuation (some continuation) returnValue none
  | valueTaskOfResult =>
      ValueTaskOfResultContinuationGenerator.setContinuation (some continuation) returnValue none

/-- The task that goes on when the given one has ended. -/
def continueWith (continuation : Callback ρ ε) (previous : Outcome ρ ε) :
    Generator ρ → Run ρ ε (Outcome ρ ε)
  | task =>
      Effect.asTask ofDelegate (TaskContinuationGenerator.continuationAction continuation previous)
  | taskOfResult =>
      Effect.asTask ofDelegate
        (TaskOfResultContinuationGenerator.continuationAction continuation previous)
  | valueTask =>
      Effect.asTask ofAsyncMethod
        (ValueTaskContinuationGenerator.innerSetValueTaskContinuation continuation previous)
  | valueTaskOfResult =>
      Effect.asTask ofAsyncMethod
        (ValueTaskOfResultContinuationGenerator.innerSetValueTaskContinuation continuation previous)

end Generator

/-! ## A task and its continuation -/

/-- A task that a method has returned, and what has been done about it. -/
structure World (ρ ε : Type) where
  /-- How the task has ended, unless it runs. -/
  original : Option (Outcome ρ ε)
  /-- What `SetContinuation` has handed back or thrown, if it has been called. -/
  handed : Option (Except (Exn ε) (Handed ρ ε))
  /-- How the task had ended when `SetContinuation` was called, unless it was running. -/
  seen : Option (Outcome ρ ε)
  /-- The calls of the integration. -/
  calls : List (Call ρ ε)

/-- What happens. -/
inductive Event (ρ ε : Type)
  /-- The task ends. -/
  | finish (outcome : Outcome ρ ε)
  /-- `SetContinuation` is called. -/
  | setContinuation
  /-- The task that was handed back goes on. -/
  | goOn
  deriving Repr

namespace World

variable {ρ ε : Type}

/-- The method has just returned. -/
def initial (ρ ε : Type) : World ρ ε := ⟨none, none, none, []⟩

/-- One event. -/
def step (generator : Generator ρ) (continuation : Callback ρ ε) (w : World ρ ε) :
    Event ρ ε → Option (World ρ ε)
  | .finish outcome =>
      match w.original with
      | none => some { w with original := some outcome }
      | some _ => none
  | .setContinuation =>
      match w.handed with
      | none =>
          let (handed, calls) :=
            Effect.eval (generator.setContinuation continuation w.original) w.calls
          some { w with handed := some handed, seen := w.original, calls := calls }
      | some _ => none
  | .goOn =>
      match w.handed, w.original with
      | some (.ok .continuing), some outcome =>
          let (result, calls) := Effect.eval (generator.continueWith continuation outcome) w.calls
          some { w with handed := some (result.map .ended), calls := calls }
      | _, _ => none

/-- The system of a generator and an integration. -/
def system (generator : Generator ρ) (continuation : Callback ρ ε) : Lts (World ρ ε) (Event ρ ε) :=
  Lts.ofStep (initial ρ ε) (step generator continuation)

/-- Nothing is left to happen. -/
def AtRest (w : World ρ ε) : Prop :=
  w.original ≠ none ∧ w.handed ≠ none ∧ w.handed ≠ some (.ok .continuing)

/-- The end of the task that was handed back. -/
def handedOutcome (w : World ρ ε) : Option (Outcome ρ ε) :=
  match w.handed with
  | some (.ok .returnValue) => w.original
  | some (.ok (.ended outcome)) => some outcome
  | _ => none

/-- The task that was handed back has ended like the one that was given, and the integration has
been called once. -/
def Transparent (w : World ρ ε) : Prop :=
  w.handedOutcome = w.original ∧ w.calls.length = 1

end World

end DdTrace.CallTarget
