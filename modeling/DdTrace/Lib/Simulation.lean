import Mathlib.Data.Nat.Init
import Mathlib.Tactic.Common

/-!
# Forward simulation

Machines with a step function that is undefined where they stop.

* `stepN`: a number of steps.
* `stepN_of_simulation`: if every step of one machine is matched by one step or more of another, then
  so is every run, by one that is no shorter.
* `Endless`: runs that never stop; `endless_of_simulation`.
-/

namespace DdTrace.Lib

variable {σ τ : Type*}

/-- The state after `n` steps, if there are as many. -/
def stepN (step : σ → Option σ) : Nat → σ → Option σ
  | 0, s => some s
  | n + 1, s => (step s).bind (stepN step n)

@[simp] theorem stepN_zero (step : σ → Option σ) (s : σ) : stepN step 0 s = some s := rfl

theorem stepN_succ (step : σ → Option σ) (n : Nat) (s : σ) :
    stepN step (n + 1) s = (step s).bind (stepN step n) := rfl

@[simp] theorem stepN_one (step : σ → Option σ) (s : σ) : stepN step 1 s = step s := by
  rw [stepN_succ]
  exact Option.bind_fun_some (step s)

/-- Steps after steps. -/
theorem stepN_add (step : σ → Option σ) (m n : Nat) (s : σ) :
    stepN step (m + n) s = (stepN step m s).bind (stepN step n) := by
  induction m generalizing s with
  | zero => rw [Nat.zero_add, stepN_zero, Option.bind_some]
  | succ m ih =>
      rw [Nat.succ_add, stepN_succ, stepN_succ, Option.bind_assoc]
      exact congrArg (Option.bind (step s)) (funext ih)

theorem stepN_trans {step : σ → Option σ} {m n : Nat} {s t u : σ} (h : stepN step m s = some t)
    (h' : stepN step n t = some u) : stepN step (m + n) s = some u := by
  rw [stepN_add, h]
  exact h'

/-- The machine never stops. -/
def Endless (step : σ → Option σ) (s : σ) : Prop := ∀ n, ∃ t, stepN step n s = some t

/-- A run goes through shorter ones. -/
theorem exists_stepN_of_le {step : σ → Option σ} {m n : Nat} (hle : n ≤ m) {s t : σ}
    (h : stepN step m s = some t) : ∃ u, stepN step n s = some u := by
  obtain ⟨k, rfl⟩ := Nat.exists_eq_add_of_le hle
  rw [stepN_add] at h
  obtain ⟨u, hu, -⟩ := Option.bind_eq_some_iff.mp h
  exact ⟨u, hu⟩

variable {step : σ → Option σ} {step' : τ → Option τ} {R : σ → τ → Prop}

/-- **The simulation rule.** -/
theorem stepN_of_simulation (hstep : ∀ s t s', R s t → step s = some s' →
      ∃ m t', stepN step' (m + 1) t = some t' ∧ R s' t') {n : Nat} {s s' : σ} {t : τ} (hR : R s t)
    (h : stepN step n s = some s') : ∃ m t', n ≤ m ∧ stepN step' m t = some t' ∧ R s' t' := by
  induction n generalizing s t with
  | zero =>
      obtain rfl := Option.some.inj h
      exact ⟨0, t, Nat.le_refl 0, rfl, hR⟩
  | succ n ih =>
      obtain ⟨u, hu, h⟩ := Option.bind_eq_some_iff.mp h
      obtain ⟨k, v, hk, hv⟩ := hstep s t u hR hu
      obtain ⟨m, t', hle, hm, hR'⟩ := ih hv h
      exact ⟨k + 1 + m, t', by omega, stepN_trans hk hm, hR'⟩

/-- Runs that never stop are matched by such runs. -/
theorem endless_of_simulation (hstep : ∀ s t s', R s t → step s = some s' →
      ∃ m t', stepN step' (m + 1) t = some t' ∧ R s' t') {s : σ} {t : τ} (hR : R s t)
    (h : Endless step s) : Endless step' t := by
  intro n
  obtain ⟨s', hs'⟩ := h n
  obtain ⟨m, t', hle, hm, -⟩ := stepN_of_simulation hstep hR hs'
  exact exists_stepN_of_le hle hm

end DdTrace.Lib
