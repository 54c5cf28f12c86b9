import DdTrace.CallTarget.Continuations

/-!
# When the continuation of a task is not noticed

* `Generator.Preserves`: the ends of a task that its generator preserves.
* `settle`: what a run comes to, by what `SetContinuation` sees and how the task ends.
* `settled_of_atRest`: in every order of events.
* `transparent_iff`: the task that is handed back ends like the one that was given, and the
  integration is called once, exactly if the end is one that is preserved.

Source: `TaskContinuationGenerator.cs`, ``TaskContinuationGenerator`1.cs``,
`ValueTaskContinuationGenerator.cs` and ``ValueTaskContinuationGenerator`1.cs``.
-/

namespace DdTrace.CallTarget

open DdTrace.Lib DdTrace.Lib.Tasks

variable {ρ ε : Type}

/-! ## What is preserved -/

/-- What the generators for tasks preserve: a result, unless the integration throws for a task that
has already ended; one exception that is its own base; no cancellation. -/
def TaskPreserves (continuation : Callback ρ ε) (seen : Option (Outcome ρ ε)) :
    Outcome ρ ε → Prop
  | .ranToCompletion result => seen = none ∨ ∃ value, continuation result none = .ok value
  | .faulted first others => others = [] ∧ ∀ e, first ≠ .aggregate [e]
  | .canceled => False

/-- What the generators for value tasks preserve: a result, a cancellation, and one exception that
does not stand for a cancellation. -/
def ValueTaskPreserves : Outcome ρ ε → Prop
  | .faulted first others => others = [] ∧ first.isOperationCanceled = false
  | _ => True

/-- What a generator preserves, with what it sees when `SetContinuation` is called. -/
def Generator.Preserves (generator : Generator ρ) (continuation : Callback ρ ε)
    (seen : Option (Outcome ρ ε)) (outcome : Outcome ρ ε) : Prop :=
  match generator with
  | task => TaskPreserves continuation seen outcome
  | taskOfResult => TaskPreserves continuation seen outcome
  | valueTask => ValueTaskPreserves outcome
  | valueTaskOfResult => ValueTaskPreserves outcome

/-! ## What a run comes to -/

variable {generator : Generator ρ} {continuation : Callback ρ ε} {w : World ρ ε}
  {seen : Option (Outcome ρ ε)} {outcome : Outcome ρ ε}

/-- What has been handed back, and the calls of the integration. -/
abbrev Settled (ρ ε : Type) := Except (Exn ε) (Handed ρ ε) × List (Call ρ ε)

/-- The call of `SetContinuation`. -/
def atCall (generator : Generator ρ) (continuation : Callback ρ ε)
    (seen : Option (Outcome ρ ε)) : Settled ρ ε :=
  Effect.eval (generator.setContinuation continuation seen) []

/-- The task that was handed back goes on. -/
def goOn (generator : Generator ρ) (continuation : Callback ρ ε) (outcome : Outcome ρ ε)
    (calls : List (Call ρ ε)) : Settled ρ ε :=
  ((Effect.eval (generator.continueWith continuation outcome) calls).1.map .ended,
    (Effect.eval (generator.continueWith continuation outcome) calls).2)

/-- The call, and then the rest if there is one. -/
def settle (generator : Generator ρ) (continuation : Callback ρ ε)
    (seen : Option (Outcome ρ ε)) (outcome : Outcome ρ ε) : Settled ρ ε :=
  match atCall generator continuation seen with
  | (.ok .continuing, calls) => goOn generator continuation outcome calls
  | settled => settled

/-- What a reachable world has to do with `settle`. -/
def Inv (generator : Generator ρ) (continuation : Callback ρ ε) (w : World ρ ε) : Prop :=
  match w.handed with
  | none => w.calls = []
  | some handed =>
      (w.seen = none ∨ w.seen = w.original) ∧
        (atCall generator continuation w.seen = (handed, w.calls) ∨
          ∃ outcome calls, w.original = some outcome ∧
            atCall generator continuation w.seen = (.ok .continuing, calls) ∧
            goOn generator continuation outcome calls = (handed, w.calls))

/-- A task that goes on has ended then. -/
theorem goOn_ne_continuing (outcome : Outcome ρ ε) (calls : List (Call ρ ε)) :
    (goOn generator continuation outcome calls).1 ≠ .ok .continuing := by
  unfold goOn
  cases (Effect.eval (generator.continueWith continuation outcome) calls).1 with
  | ok handed => simp [Except.map]
  | error e => simp [Except.map]

/-- Every event keeps the invariant. -/
theorem Inv.step {event : Event ρ ε} {w' : World ρ ε} (h : Inv generator continuation w)
    (hstep : World.step generator continuation w event = some w') :
    Inv generator continuation w' := by
  obtain ⟨original, handed, seen, calls⟩ := w
  cases event with
  | finish outcome =>
      cases original with
      | some o => simp [World.step] at hstep
      | none =>
          cases Option.some.inj hstep
          cases handed with
          | none => exact h
          | some handed =>
              obtain ⟨hseen, hcall | ⟨o, calls', horiginal, _⟩⟩ := h
              · exact ⟨.inl (hseen.elim id id), .inl hcall⟩
              · cases horiginal
  | setContinuation =>
      cases handed with
      | some handed => simp [World.step] at hstep
      | none =>
          cases Option.some.inj hstep
          have hcalls : calls = [] := h
          refine ⟨.inr rfl, .inl ?_⟩
          rw [hcalls]
          rfl
  | goOn =>
      simp only [World.step] at hstep
      split at hstep
      · rename_i outcome
        cases Option.some.inj hstep
        obtain ⟨hseen, hcall | ⟨o, calls', _, _, hgone⟩⟩ := h
        · exact ⟨hseen, .inr ⟨outcome, calls, rfl, hcall, rfl⟩⟩
        · exact absurd (congrArg Prod.fst hgone) (goOn_ne_continuing o calls')
      · cases hstep

/-- **In every run** that has come to rest, `SetContinuation` saw nothing or the end of the task,
and the run came to what `settle` says. -/
theorem settled_of_atRest (hw : (World.system generator continuation).Reachable w)
    (hrest : w.AtRest) :
    ∃ outcome, w.original = some outcome ∧ (w.seen = none ∨ w.seen = some outcome) ∧
      ∃ handed, w.handed = some handed ∧
        settle generator continuation w.seen outcome = (handed, w.calls) := by
  have hinv : Inv generator continuation w := by
    refine hw.invariant ?_ fun _ _ _ h hstep => h.step hstep
    rintro _ rfl
    rfl
  obtain ⟨horiginal, hhanded, hrest⟩ := hrest
  obtain ⟨outcome, horiginal⟩ := Option.ne_none_iff_exists'.mp horiginal
  obtain ⟨handed, hhanded⟩ := Option.ne_none_iff_exists'.mp hhanded
  unfold Inv at hinv
  rw [hhanded] at hinv hrest
  rw [horiginal] at hinv
  obtain ⟨hseen, hcall⟩ := hinv
  refine ⟨outcome, horiginal, hseen, handed, hhanded, ?_⟩
  unfold settle
  rcases hcall with hcall | ⟨o, calls', ho, hcall, hgone⟩
  · rw [hcall]
    rcases handed with e | _ | _ | o
    · rfl
    · rfl
    · exact absurd rfl hrest
    · rfl
  · rw [hcall]
    cases Option.some.inj ho
    exact hgone

/-! ## What the continuations do -/

section Continuations

variable (calls : List (Call ρ ε))

/-- A call whose exceptions are only logged. -/
theorem eval_invoke_swallow (continuation : Callback ρ ε) (value a : ρ)
    (exception : Option (Exn ε)) :
    ∃ result, Effect.eval (tryCatch (invoke continuation value exception) fun _ => pure a) calls =
      (.ok result, calls ++ [(value, exception)]) := by
  unfold invoke
  cases hcall : continuation value exception with
  | ok result =>
      refine ⟨result, ?_⟩
      simp only [Effect.eval_tryCatch, Effect.eval_call]
  | error e =>
      refine ⟨a, ?_⟩
      simp only [Effect.eval_tryCatch, Effect.eval_call, Effect.eval_pure]

/-- Such a call of an integration that passes the value through, where the value goes on. -/
theorem eval_invoke_passing (hpass : PassesThrough continuation) (value : ρ)
    (exception : Option (Exn ε)) :
    Effect.eval (tryCatch (invoke continuation value exception) fun _ => pure value) calls =
      (.ok value, calls ++ [(value, exception)]) := by
  unfold invoke
  cases hcall : continuation value exception with
  | ok result =>
      rw [← hpass value exception result hcall]
      simp only [Effect.eval_tryCatch, Effect.eval_call]
  | error e => simp only [Effect.eval_tryCatch, Effect.eval_call, Effect.eval_pure]

theorem eval_task_action (continuation : Callback Unit ε) (outcome : Outcome Unit ε)
    (calls : List (Call Unit ε)) :
    Effect.eval (TaskContinuationGenerator.continuationAction continuation outcome) calls =
      (match outcome.exception with
        | some exception => .error exception.getBaseException
        | none => .ok (),
      calls ++ [((), outcome.exception)]) := by
  obtain ⟨result, hcall⟩ := eval_invoke_swallow calls continuation () ()
    outcome.exception
  unfold TaskContinuationGenerator.continuationAction
  rw [Effect.eval_bind, hcall]
  cases outcome.exception with
  | none => rfl
  | some exception => rfl

theorem eval_taskOfResult_action [Inhabited ρ] (hpass : PassesThrough continuation)
    (outcome : Outcome ρ ε) :
    Effect.eval (TaskOfResultContinuationGenerator.continuationAction continuation outcome) calls =
      match outcome with
      | .ranToCompletion result => (.ok result, calls ++ [(result, none)])
      | .faulted first others =>
          (.error (Exn.aggregate (first :: others)).getBaseException,
            calls ++ [(default, some (.aggregate (first :: others)))])
      | .canceled => (.error (.aggregate [.taskCanceled]), calls) := by
  cases outcome with
  | ranToCompletion result => exact eval_invoke_passing calls hpass result none
  | faulted first others =>
      obtain ⟨result, hcall⟩ := eval_invoke_swallow calls continuation default
        default (some (.aggregate (first :: others)))
      unfold TaskOfResultContinuationGenerator.continuationAction
      simp only [Outcome.exception]
      rw [Effect.eval_bind, hcall]
      rfl
  | canceled => rfl

theorem eval_valueTask_inner (continuation : Callback Unit ε) (outcome : Outcome Unit ε)
    (calls : List (Call Unit ε)) :
    ∃ call, Effect.eval
        (ValueTaskContinuationGenerator.innerSetValueTaskContinuation continuation outcome) calls =
      (outcome.await, calls ++ [call]) := by
  unfold ValueTaskContinuationGenerator.innerSetValueTaskContinuation
  cases hawait : outcome.await with
  | ok value =>
      obtain ⟨result, hcall⟩ := eval_invoke_swallow calls continuation () () none
      refine ⟨((), none), ?_⟩
      simp only [Effect.eval_bind, hcall, Effect.eval_pure]
  | error ex =>
      obtain ⟨result, hcall⟩ := eval_invoke_swallow calls continuation () ()
        (some ex)
      refine ⟨((), some ex), ?_⟩
      simp only [Effect.eval_bind, hcall, Effect.eval_throw]

theorem eval_valueTaskOfResult_inner [Inhabited ρ] (hpass : PassesThrough continuation)
    (outcome : Outcome ρ ε) :
    ∃ call, Effect.eval
        (ValueTaskOfResultContinuationGenerator.innerSetValueTaskContinuation continuation outcome)
        calls =
      (outcome.await, calls ++ [call]) := by
  unfold ValueTaskOfResultContinuationGenerator.innerSetValueTaskContinuation
  cases outcome.await with
  | ok value => exact ⟨(value, none), eval_invoke_passing calls hpass value none⟩
  | error ex =>
      obtain ⟨result, hcall⟩ := eval_invoke_swallow calls continuation default
        default (some ex)
      refine ⟨(default, some ex), ?_⟩
      simp only [Effect.eval_bind, hcall, Effect.eval_throw]

end Continuations

/-! ## The ends of a run -/

/-- The end of the task that was handed back. -/
def endOf (outcome : Outcome ρ ε) : Except (Exn ε) (Handed ρ ε) → Option (Outcome ρ ε)
  | .ok .returnValue => some outcome
  | .ok (.ended handed) => some handed
  | _ => none

/-- Like the task, after one call. -/
def SettledWell (outcome : Outcome ρ ε) (settled : Settled ρ ε) : Prop :=
  endOf outcome settled.1 = some outcome ∧ settled.2.length = 1

/-- A task that has been handed back and has ended. -/
theorem settledWell_ended {handed : Outcome ρ ε} {calls : List (Call ρ ε)} :
    SettledWell outcome (.ok (.ended handed), calls) ↔ handed = outcome ∧ calls.length = 1 := by
  unfold SettledWell endOf
  rw [Option.some.injEq]

theorem settle_of_continuing {calls : List (Call ρ ε)}
    (h : atCall generator continuation seen = (.ok .continuing, calls)) :
    settle generator continuation seen outcome = goOn generator continuation outcome calls := by
  unfold settle
  rw [h]

/-- A task that had not ended with a result is continued. -/
theorem task_settledWell_iff {continuation : Callback Unit ε} {seen : Option (Outcome Unit ε)}
    {outcome : Outcome Unit ε} (hseen : seen = none ∨ seen = some outcome) :
    SettledWell outcome (settle .task continuation seen outcome) ↔
      TaskPreserves continuation seen outcome := by
  have hgoOn : goOn .task continuation outcome [] =
      (.ok (.ended (ofDelegate (match outcome.exception with
        | some exception => .error exception.getBaseException
        | none => .ok ()))), [((), outcome.exception)]) := by
    unfold goOn Generator.continueWith
    simp only [Effect.eval_asTask, eval_task_action]
    rfl
  cases outcome with
  | ranToCompletion result =>
      rcases hseen with rfl | rfl
      · rw [settle_of_continuing rfl, hgoOn, settledWell_ended]
        exact ⟨fun _ => .inl rfl, fun _ => ⟨rfl, rfl⟩⟩
      · unfold settle atCall Generator.setContinuation TaskContinuationGenerator.setContinuation
          invoke
        simp only [Effect.eval_bind, Effect.eval_call]
        cases hcall : continuation () none with
        | ok value => simp [TaskPreserves, SettledWell, endOf, hcall]
        | error e => simp [TaskPreserves, SettledWell, endOf, hcall]
  | faulted first others =>
      have hcontinuing : atCall .task continuation seen = (.ok .continuing, []) := by
        rcases hseen with rfl | rfl <;> rfl
      rw [settle_of_continuing hcontinuing, hgoOn, settledWell_ended]
      exact (and_iff_left rfl).trans faulted_getBaseException_eq_iff
  | canceled =>
      have hcontinuing : atCall .task continuation seen = (.ok .continuing, []) := by
        rcases hseen with rfl | rfl <;> rfl
      rw [settle_of_continuing hcontinuing, hgoOn, settledWell_ended]
      exact iff_of_false (fun h => by cases h.1) id

theorem taskOfResult_settledWell_iff [Inhabited ρ] (hpass : PassesThrough continuation)
    (hseen : seen = none ∨ seen = some outcome) :
    SettledWell outcome (settle .taskOfResult continuation seen outcome) ↔
      TaskPreserves continuation seen outcome := by
  have hgoOn := eval_taskOfResult_action [] hpass outcome
  cases outcome with
  | ranToCompletion result =>
      rcases hseen with rfl | rfl
      · rw [settle_of_continuing rfl]
        unfold goOn Generator.continueWith
        simp only [Effect.eval_asTask, hgoOn]
        exact iff_of_true ⟨rfl, rfl⟩ (.inl rfl)
      · unfold settle atCall Generator.setContinuation
          TaskOfResultContinuationGenerator.setContinuation invoke
        simp only [Effect.eval_bind, Effect.eval_call]
        cases hcall : continuation result none with
        | ok value =>
            rw [hpass result none value hcall]
            exact iff_of_true ⟨rfl, rfl⟩ (.inr ⟨value, hcall⟩)
        | error e => simp [TaskPreserves, SettledWell, endOf, hcall]
  | faulted first others =>
      have hcontinuing : atCall .taskOfResult continuation seen = (.ok .continuing, []) := by
        rcases hseen with rfl | rfl <;> rfl
      rw [settle_of_continuing hcontinuing]
      unfold goOn Generator.continueWith
      simp only [Effect.eval_asTask, hgoOn, Except.map, settledWell_ended, ofDelegate]
      exact (and_iff_left rfl).trans faulted_getBaseException_eq_iff
  | canceled =>
      have hcontinuing : atCall .taskOfResult continuation seen = (.ok .continuing, []) := by
        rcases hseen with rfl | rfl <;> rfl
      rw [settle_of_continuing hcontinuing]
      unfold goOn Generator.continueWith
      simp only [Effect.eval_asTask, hgoOn, Except.map, settledWell_ended]
      exact iff_of_false (fun h => by cases h.1) id

/-- The end of the asynchronous method. -/
theorem valueTaskPreserves_iff :
    ofAsyncMethod outcome.await = outcome ↔ ValueTaskPreserves outcome := by
  rw [ofAsyncMethod_await_eq_iff]
  cases outcome with
  | ranToCompletion result => exact iff_of_true (fun _ _ h => by cases h) trivial
  | canceled => exact iff_of_true (fun _ _ h => by cases h) trivial
  | faulted first others =>
      constructor
      · intro h
        exact h first others rfl
      · rintro h first' others' ⟨⟩
        exact h

theorem valueTask_settledWell_iff {continuation : Callback Unit ε}
    {seen : Option (Outcome Unit ε)} {outcome : Outcome Unit ε}
    (hseen : seen = none ∨ seen = some outcome) :
    SettledWell outcome (settle .valueTask continuation seen outcome) ↔
      ValueTaskPreserves outcome := by
  obtain ⟨call, hgoOn⟩ := eval_valueTask_inner continuation outcome []
  have hsettle : settle .valueTask continuation seen outcome =
      (.ok (.ended (ofAsyncMethod outcome.await)), [call]) := by
    rcases hseen with rfl | rfl
    · rw [settle_of_continuing rfl]
      unfold goOn Generator.continueWith
      simp only [Effect.eval_asTask, hgoOn]
      rfl
    · unfold settle atCall Generator.setContinuation ValueTaskContinuationGenerator.setContinuation
      simp only [Effect.eval_bind, Effect.eval_asTask, hgoOn, Effect.eval_pure]
      rfl
  rw [hsettle, settledWell_ended]
  exact (and_iff_left rfl).trans valueTaskPreserves_iff

theorem valueTaskOfResult_settledWell_iff [Inhabited ρ] (hpass : PassesThrough continuation)
    (hseen : seen = none ∨ seen = some outcome) :
    SettledWell outcome (settle .valueTaskOfResult continuation seen outcome) ↔
      ValueTaskPreserves outcome := by
  obtain ⟨call, hgoOn⟩ := eval_valueTaskOfResult_inner [] hpass outcome
  have hsettle : settle .valueTaskOfResult continuation seen outcome =
      (.ok (.ended (ofAsyncMethod outcome.await)), [call]) := by
    rcases hseen with rfl | rfl
    · rw [settle_of_continuing rfl]
      unfold goOn Generator.continueWith
      simp only [Effect.eval_asTask, hgoOn]
      rfl
    · unfold settle atCall Generator.setContinuation
        ValueTaskOfResultContinuationGenerator.setContinuation
      simp only [Effect.eval_bind, Effect.eval_asTask, hgoOn, Effect.eval_pure]
      rfl
  rw [hsettle, settledWell_ended]
  exact (and_iff_left rfl).trans valueTaskPreserves_iff

/-- **What a generator preserves**, by what it sees and how the task ends. -/
theorem settledWell_iff (hpass : PassesThrough continuation)
    (hseen : seen = none ∨ seen = some outcome) :
    SettledWell outcome (settle generator continuation seen outcome) ↔
      generator.Preserves continuation seen outcome := by
  cases generator with
  | task => exact task_settledWell_iff hseen
  | taskOfResult => exact taskOfResult_settledWell_iff hpass hseen
  | valueTask => exact valueTask_settledWell_iff hseen
  | valueTaskOfResult => exact valueTaskOfResult_settledWell_iff hpass hseen

/-- **A task and its continuation, in any order of events**: at rest, the task that was handed back
has ended like the one that was given, after one call of the integration, exactly if the generator
preserves its end. -/
theorem transparent_iff (hpass : PassesThrough continuation)
    (hw : (World.system generator continuation).Reachable w) (hrest : w.AtRest) :
    w.Transparent ↔ ∃ outcome, w.original = some outcome ∧
      generator.Preserves continuation w.seen outcome := by
  obtain ⟨outcome, horiginal, hseen, handed, hhanded, hsettle⟩ := settled_of_atRest hw hrest
  have hwell : SettledWell outcome (settle generator continuation w.seen outcome) ↔
      generator.Preserves continuation w.seen outcome := settledWell_iff hpass hseen
  rw [hsettle] at hwell
  have hends : w.handedOutcome = endOf outcome handed := by
    unfold World.handedOutcome endOf
    rw [hhanded, horiginal]
    rcases handed with e | _ | _ | o <;> rfl
  unfold World.Transparent
  rw [hends, horiginal]
  constructor
  · intro h
    exact ⟨outcome, rfl, hwell.mp h⟩
  · rintro ⟨outcome', houtcome, h⟩
    cases Option.some.inj houtcome
    exact hwell.mpr h

/-! ## Runs -/

/-- While something is left to happen, something can. -/
theorem exists_step (generator : Generator ρ) (continuation : Callback ρ ε) (hrest : ¬ w.AtRest) :
    ∃ event w', World.step generator continuation w event = some w' := by
  obtain ⟨original, handed, seen, calls⟩ := w
  cases original with
  | none => exact ⟨.finish .canceled, _, rfl⟩
  | some outcome =>
      cases handed with
      | none => exact ⟨.setContinuation, _, rfl⟩
      | some handed =>
          rcases handed with e | _ | _ | o
          · exact absurd ⟨nofun, nofun, nofun⟩ hrest
          · exact absurd ⟨nofun, nofun, nofun⟩ hrest
          · exact ⟨.goOn, _, rfl⟩
          · exact absurd ⟨nofun, nofun, nofun⟩ hrest

/-- An integration that returns the value it is given. -/
def passOn : Callback ρ ε := fun value _ => .ok value

/-- A task without a result that is canceled while it is awaited comes back as completed. -/
theorem task_canceled_not_transparent :
    ¬ ∀ w, runOps (World.step .task passOn) (World.initial Unit Unit)
      [.setContinuation, .finish .canceled, .goOn] = some w → w.Transparent := by
  intro h
  have hends := (h _ rfl).1
  cases hends

/-- A task that ends with a result after it was handed back. -/
def completed : World Nat Unit :=
  ⟨some (.ranToCompletion 7), some (.ok (.ended (.ranToCompletion 7))), none, [(7, none)]⟩

theorem completed_transparent :
    (World.system .taskOfResult (passOn : Callback Nat Unit)).Reachable completed ∧
      completed.Transparent := by
  have hrun : runOps (World.step .taskOfResult passOn) (World.initial Nat Unit)
      [.setContinuation, .finish (.ranToCompletion 7), .goOn] = some completed := rfl
  have hw : (World.system .taskOfResult (passOn : Callback Nat Unit)).Reachable completed :=
    Lts.reachable_of_runOps hrun
  have hpass : PassesThrough (passOn : Callback Nat Unit) :=
    fun _ _ _ h => (Except.ok.inj h).symm
  have hpreserves : Generator.Preserves .taskOfResult (passOn : Callback Nat Unit) none
      (.ranToCompletion 7) := Or.inl rfl
  exact ⟨hw, (transparent_iff hpass hw ⟨nofun, nofun, nofun⟩).mpr ⟨_, rfl, hpreserves⟩⟩

end DdTrace.CallTarget
