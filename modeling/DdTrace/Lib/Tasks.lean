import Mathlib.Tactic.Common

/-!
# Tasks

The ends of asynchronous computations, and computations that log what they call and may throw.

* `Exn`: exceptions, with the two kinds that tasks treat in their own way, and
  `Exn.getBaseException`.
* `Outcome`: how a task ends; `Outcome.exception`, `Outcome.result`, `Outcome.await`.
* `ofDelegate`, `ofAsyncMethod`: how a task ends whose body is a delegate, or an asynchronous
  method.
* `Effect`, `Effect.eval`: computations that log and throw, with one rule for each way to build
  one.

That an asynchronous method awaits a task that was canceled is one exception for all such tasks.
-/

namespace DdTrace.Lib.Tasks

variable {ρ ε ℓ α β : Type}

/-! ## Exceptions -/

/-- An exception. -/
inductive Exn (ε : Type)
  /-- An exception of no special kind. -/
  | other (e : ε)
  /-- An `OperationCanceledException`. -/
  | operationCanceled (e : ε)
  /-- The `TaskCanceledException` for a task that was canceled. -/
  | taskCanceled
  /-- An `AggregateException`. -/
  | aggregate (innerExceptions : List (Exn ε))
  deriving Repr

namespace Exn

/-- The exceptions that stand for a cancellation. -/
def isOperationCanceled : Exn ε → Bool
  | other _ => false
  | operationCanceled _ => true
  | taskCanceled => true
  | aggregate _ => false

/-- `GetBaseException`: an aggregate of one exception is opened. -/
def getBaseException : Exn ε → Exn ε
  | aggregate [e] => e.getBaseException
  | e => e

theorem sizeOf_getBaseException_le (e : Exn ε) : sizeOf e.getBaseException ≤ sizeOf e := by
  induction e using getBaseException.induct with
  | case1 e ih =>
      rw [getBaseException]
      have hsize : sizeOf e < sizeOf (aggregate [e]) := by simp; omega
      exact Nat.le_trans ih (Nat.le_of_lt hsize)
  | case2 e h =>
      have hbase : e.getBaseException = e := by
        rw [getBaseException]
        exact h
      exact Nat.le_of_eq (congrArg sizeOf hbase)

/-- An exception is its own base unless it is an aggregate of one exception. -/
theorem getBaseException_eq_self_iff {e : Exn ε} :
    e.getBaseException = e ↔ ∀ e', e ≠ aggregate [e'] := by
  constructor
  · rintro h e' rfl
    have hle := sizeOf_getBaseException_le e'
    rw [getBaseException] at h
    rw [h] at hle
    simp at hle
    omega
  · intro h
    rw [getBaseException]
    exact h

end Exn

/-! ## Ends of tasks -/

/-- How a task ends. A task that is faulted has at least one exception. -/
inductive Outcome (ρ ε : Type)
  /-- With a result. -/
  | ranToCompletion (result : ρ)
  /-- With exceptions. -/
  | faulted (first : Exn ε) (others : List (Exn ε))
  /-- Canceled. -/
  | canceled
  deriving Repr

namespace Outcome

/-- `Task.Exception`: a task that was canceled has none. -/
def exception : Outcome ρ ε → Option (Exn ε)
  | ranToCompletion _ => none
  | faulted first others => some (.aggregate (first :: others))
  | canceled => none

/-- `Task.Result`. -/
def result : Outcome ρ ε → Except (Exn ε) ρ
  | ranToCompletion result => .ok result
  | faulted first others => .error (.aggregate (first :: others))
  | canceled => .error (.aggregate [.taskCanceled])

/-- What `await` returns or throws: of several exceptions, the first. -/
def await : Outcome ρ ε → Except (Exn ε) ρ
  | ranToCompletion result => .ok result
  | faulted first _ => .error first
  | canceled => .error .taskCanceled

end Outcome

/-- The end of a task that runs a delegate. A cancellation that is thrown is an exception like any
other, unless the task's own token asked for it. -/
def ofDelegate : Except (Exn ε) ρ → Outcome ρ ε
  | .ok result => .ranToCompletion result
  | .error e => .faulted e []

/-- The end of the task of an asynchronous method. -/
def ofAsyncMethod : Except (Exn ε) ρ → Outcome ρ ε
  | .ok result => .ranToCompletion result
  | .error e => if e.isOperationCanceled then .canceled else .faulted e []

/-- An asynchronous method that only awaits a task ends like the task, if it has at most one
exception and none that stands for a cancellation. -/
theorem ofAsyncMethod_await_eq_iff {o : Outcome ρ ε} :
    ofAsyncMethod o.await = o ↔
      ∀ first others, o = .faulted first others → others = [] ∧ first.isOperationCanceled = false := by
  cases o with
  | ranToCompletion result => simp [Outcome.await, ofAsyncMethod]
  | canceled => simp [Outcome.await, ofAsyncMethod, Exn.isOperationCanceled]
  | faulted first others =>
      cases hkind : first.isOperationCanceled with
      | true => simp [Outcome.await, ofAsyncMethod, hkind]
      | false =>
          simp only [Outcome.await, ofAsyncMethod, hkind, Bool.false_eq_true, if_false,
            Outcome.faulted.injEq, true_and]
          constructor
          · rintro hothers first' others' ⟨rfl, rfl⟩
            exact ⟨hothers.symm, hkind⟩
          · intro h
            exact (h first others ⟨rfl, rfl⟩).1.symm

/-- A delegate that throws the base of a task's exception ends its task like that task, if the task
has one exception and that is its own base. -/
theorem faulted_getBaseException_eq_iff {first : Exn ε} {others : List (Exn ε)} :
    (Outcome.faulted (Exn.aggregate (first :: others)).getBaseException [] : Outcome ρ ε) =
      .faulted first others ↔ others = [] ∧ ∀ e, first ≠ .aggregate [e] := by
  cases others with
  | nil =>
      rw [Exn.getBaseException, Outcome.faulted.injEq, Exn.getBaseException_eq_self_iff]
      simp
  | cons second others => simp

/-! ## Computations that log and throw -/

/-- A computation that logs what it calls and may throw. -/
abbrev Effect (ℓ ε : Type) := ExceptT (Exn ε) (StateM (List ℓ))

namespace Effect

/-- Execute a computation, after what has been logged. -/
def eval (x : Effect ℓ ε α) (log : List ℓ) : Except (Exn ε) α × List ℓ := x.run.run log

/-- Return or throw. -/
def ofExcept : Except (Exn ε) α → Effect ℓ ε α
  | .ok a => pure a
  | .error e => throw e

/-- Log a call, then return or throw what it does. -/
def call (entry : ℓ) (result : Except (Exn ε) α) : Effect ℓ ε α := do
  modify (· ++ [entry])
  ofExcept result

/-- Run a computation as the body of a task. -/
def asTask (ends : Except (Exn ε) α → Outcome α ε) (body : Effect ℓ ε α) :
    Effect ℓ ε (Outcome α ε) :=
  ExceptT.mk do
    let result ← body.run
    pure (.ok (ends result))

@[simp] theorem eval_pure (a : α) (log : List ℓ) :
    (pure a : Effect ℓ ε α).eval log = (.ok a, log) := rfl

@[simp] theorem eval_throw (e : Exn ε) (log : List ℓ) :
    (throw e : Effect ℓ ε α).eval log = (.error e, log) := rfl

@[simp] theorem eval_ofExcept (r : Except (Exn ε) α) (log : List ℓ) :
    (ofExcept r : Effect ℓ ε α).eval log = (r, log) := by
  cases r with
  | ok a => rfl
  | error e => rfl

@[simp] theorem eval_call (entry : ℓ) (r : Except (Exn ε) α) (log : List ℓ) :
    (call entry r).eval log = (r, log ++ [entry]) := by
  cases r with
  | ok a => rfl
  | error e => rfl

@[simp] theorem eval_asTask (ends : Except (Exn ε) α → Outcome α ε) (body : Effect ℓ ε α)
    (log : List ℓ) :
    (asTask ends body).eval log = (.ok (ends (body.eval log).1), (body.eval log).2) := rfl

theorem eval_bind (x : Effect ℓ ε α) (f : α → Effect ℓ ε β) (log : List ℓ) :
    (x >>= f).eval log =
      match x.eval log with
      | (.ok a, log') => (f a).eval log'
      | (.error e, log') => (.error e, log') := by
  unfold eval
  rw [ExceptT.run_bind, StateT.run_bind]
  obtain ⟨result, log'⟩ := x.run.run log
  cases result with
  | ok a => rfl
  | error e => rfl

theorem eval_tryCatch (x : Effect ℓ ε α) (handler : Exn ε → Effect ℓ ε α) (log : List ℓ) :
    (tryCatch x handler).eval log =
      match x.eval log with
      | (.ok a, log') => (.ok a, log')
      | (.error e, log') => (handler e).eval log' := by
  change eval (ExceptT.tryCatch x handler) log = _
  unfold eval ExceptT.tryCatch
  rw [ExceptT.run_mk, StateT.run_bind]
  change (StateT.run (x.run) log >>= _ : Id _) = _
  obtain ⟨result, log'⟩ := x.run.run log
  cases result with
  | ok a => rfl
  | error e => rfl

end Effect

end DdTrace.Lib.Tasks
