import Mathlib.Tactic.Common
import DdTrace.Lib.Run

/-!
# Labelled transition systems

* `Lts.Reachable`: the states of the finite runs of a system, with the induction rules
  `Reachable.invariant` and `Reachable.invariant_of_reachable`.
* `Lts.ofStep`: the system of a deterministic step function, whose executable runs are runs of it
  (`reachable_of_runOps`).
* `Lts.restrict`: the runs whose steps all meet a condition on the state before the step and the
  label.
* `Lts.sync`: two systems side by side, with a relation that says which of their steps may be
  taken at the same time; the two halves of a reachable state are reachable
  (`Reachable.left_of_sync`, `Reachable.right_of_sync`), also in restricted runs.
* `Lts.Leads`: the finite runs from a given state, with their induction rule.
* `guardedStep`: two step functions side by side, to execute a restricted run
  (`reachable_sync_of_runOps`).
-/

namespace DdTrace.Lib

variable {σ τ ι κ : Type*}

/-- A labelled transition system. -/
structure Lts (σ ι : Type*) where
  /-- The initial states. -/
  Init : σ → Prop
  /-- The steps. -/
  Step : σ → ι → σ → Prop

namespace Lts

/-- The states at the end of the finite runs. -/
inductive Reachable (L : Lts σ ι) : σ → Prop where
  /-- The run of no steps. -/
  | init {s : σ} : L.Init s → Reachable L s
  /-- A run with one more step. -/
  | step {s t : σ} {a : ι} : Reachable L s → L.Step s a t → Reachable L t

namespace Reachable

variable {L : Lts σ ι} {s : σ}

/-- **The invariant rule.** -/
theorem invariant {I : σ → Prop} (h : L.Reachable s) (hinit : ∀ s, L.Init s → I s)
    (hstep : ∀ s a t, I s → L.Step s a t → I t) : I s := by
  induction h with
  | init h₀ => exact hinit _ h₀
  | step _ hs ih => exact hstep _ _ _ ih hs

/-- The invariant rule, where the step may use that the state before it is reachable. -/
theorem invariant_of_reachable {I : σ → Prop} (h : L.Reachable s) (hinit : ∀ s, L.Init s → I s)
    (hstep : ∀ s a t, L.Reachable s → I s → L.Step s a t → I t) : I s := by
  induction h with
  | init h₀ => exact hinit _ h₀
  | step hr hs ih => exact hstep _ _ _ hr ih hs

end Reachable

/-! ## Systems given by a step function -/

/-- The system of a step function that may refuse a step. -/
def ofStep (init : σ) (step : σ → ι → Option σ) : Lts σ ι where
  Init s := s = init
  Step s a t := step s a = some t

/-- An executable run is a run. -/
theorem reachable_of_runOps {init : σ} {step : σ → ι → Option σ} {as : List ι} {s : σ}
    (h : runOps step init as = some s) : (ofStep init step).Reachable s := by
  induction as using List.reverseRecOn generalizing s with
  | nil =>
      rw [runOps_nil, Option.some.injEq] at h
      exact .init h.symm
  | append_singleton as a ih =>
      rw [runOps_concat] at h
      obtain ⟨t, ht, hs⟩ := Option.bind_eq_some_iff.mp h
      exact .step (ih ht) hs

/-! ## Restricted runs -/

/-- The runs whose steps all meet a condition. -/
def restrict (L : Lts σ ι) (P : σ → ι → Prop) : Lts σ ι where
  Init := L.Init
  Step s a t := L.Step s a t ∧ P s a

/-- A restricted run is a run. -/
theorem Reachable.of_restrict {L : Lts σ ι} {P : σ → ι → Prop} {s : σ}
    (h : (L.restrict P).Reachable s) : L.Reachable s :=
  h.invariant (I := L.Reachable) (fun _ h₀ => .init h₀) fun _ _ _ hr hs => .step hr hs.1

/-- A run under a stronger condition is a run under a weaker one. -/
theorem Reachable.restrict_mono {L : Lts σ ι} {P Q : σ → ι → Prop} {s : σ}
    (h : (L.restrict P).Reachable s) (hPQ : ∀ s a, P s a → Q s a) :
    (L.restrict Q).Reachable s :=
  h.invariant (I := (L.restrict Q).Reachable) (fun _ h₀ => .init h₀)
    fun _ _ _ hr hs => .step hr ⟨hs.1, hPQ _ _ hs.2⟩

/-! ## Runs from a given state -/

/-- The state at the end is reached by a finite run from the state at the beginning. -/
inductive Leads (L : Lts σ ι) (s : σ) : σ → Prop where
  /-- The run of no steps. -/
  | refl : Leads L s s
  /-- A run with one more step. -/
  | step {t u : σ} {a : ι} : Leads L s t → L.Step t a u → Leads L s u

/-- A run from a reachable state, where a step of the run is a step of the other system. -/
theorem Leads.reachable {L M : Lts σ ι} {s t : σ} (h : L.Leads s t) (hs : M.Reachable s)
    (hstep : ∀ t a u, L.Step t a u → M.Step t a u) : M.Reachable t := by
  induction h with
  | refl => exact hs
  | step _ ht ih => exact .step ih (hstep _ _ _ ht)

/-- **The invariant rule** for runs from a given state. -/
theorem Leads.invariant {L : Lts σ ι} {s t : σ} (h : L.Leads s t) {I : σ → Prop} (hs : I s)
    (hstep : ∀ t a u, L.Leads s t → I t → L.Step t a u → I u) : I t := by
  induction h with
  | refl => exact hs
  | step hr ht ih => exact hstep _ _ _ hr ih ht

/-! ## Two systems side by side -/

/-- At most one step. -/
inductive StepOption (L : Lts σ ι) : σ → Option ι → σ → Prop where
  /-- No step. -/
  | stay (s : σ) : StepOption L s none s
  /-- One step. -/
  | move {s t : σ} {a : ι} : L.Step s a t → StepOption L s (some a) t

theorem stepOption_none {L : Lts σ ι} {s t : σ} : L.StepOption s none t ↔ t = s := by
  constructor
  · rintro ⟨⟩
    rfl
  · rintro rfl
    exact .stay _

theorem stepOption_some {L : Lts σ ι} {s t : σ} {a : ι} :
    L.StepOption s (some a) t ↔ L.Step s a t := by
  constructor
  · intro h
    cases h with
    | move h => exact h
  · exact .move

/-- What any step keeps, at most one step keeps. -/
theorem StepOption.invariant {L : Lts σ ι} {I : σ → Prop} {s t : σ} {a : Option ι}
    (h : L.StepOption s a t) (hs : I s) (hstep : ∀ a t, L.Step s a t → I t) : I t := by
  cases h with
  | stay => exact hs
  | move h => exact hstep _ _ h

/-- Two systems side by side; `R` says which labels go together. -/
def sync (L : Lts σ ι) (M : Lts τ κ) (R : Option ι → Option κ → Prop) :
    Lts (σ × τ) (Option ι × Option κ) where
  Init s := L.Init s.1 ∧ M.Init s.2
  Step s a t := R a.1 a.2 ∧ L.StepOption s.1 a.1 t.1 ∧ M.StepOption s.2 a.2 t.2

variable {L : Lts σ ι} {M : Lts τ κ} {R : Option ι → Option κ → Prop}

/-- **The left half of a run is a run.** -/
theorem Reachable.left_of_sync {s : σ × τ} (h : (L.sync M R).Reachable s) : L.Reachable s.1 :=
  h.invariant (I := fun s => L.Reachable s.1) (fun _ h₀ => .init h₀.1)
    fun _ _ _ hr hs => hs.2.1.invariant hr fun _ _ => .step hr

/-- **The right half of a run is a run.** -/
theorem Reachable.right_of_sync {s : σ × τ} (h : (L.sync M R).Reachable s) : M.Reachable s.2 :=
  h.invariant (I := fun s => M.Reachable s.2) (fun _ h₀ => .init h₀.2)
    fun _ _ _ hr hs => hs.2.2.invariant hr fun _ _ => .step hr

/-- The left half of a restricted run is a restricted run, if the condition on the steps of both
gives one on the steps of the left half. -/
theorem Reachable.left_of_restrict_sync {P : σ × τ → Option ι × Option κ → Prop}
    {Q : σ → ι → Prop} {s : σ × τ} (h : ((L.sync M R).restrict P).Reachable s)
    (hPQ : ∀ s a b, P s (some a, b) → Q s.1 a) : (L.restrict Q).Reachable s.1 := by
  refine h.invariant (I := fun s => (L.restrict Q).Reachable s.1)
    (fun s h₀ => .init (L := L.restrict Q) (s := s.1) h₀.1) fun s a t hr hstep => ?_
  obtain ⟨a, b⟩ := a
  cases a with
  | none =>
      show (L.restrict Q).Reachable t.1
      rw [stepOption_none.mp hstep.1.2.1]
      exact hr
  | some a => exact .step hr ⟨stepOption_some.mp hstep.1.2.1, hPQ s a b hstep.2⟩

/-- The right half of a restricted run is a restricted run, if the condition on the steps of both
gives one on the steps of the right half. -/
theorem Reachable.right_of_restrict_sync {P : σ × τ → Option ι × Option κ → Prop}
    {Q : τ → κ → Prop} {s : σ × τ} (h : ((L.sync M R).restrict P).Reachable s)
    (hPQ : ∀ s a b t, ((L.sync M R).restrict P).Reachable s → (M.restrict Q).Reachable s.2 →
      ((L.sync M R).restrict P).Step s (a, some b) t → Q s.2 b) :
    (M.restrict Q).Reachable s.2 := by
  refine h.invariant_of_reachable (I := fun s => (M.restrict Q).Reachable s.2)
    (fun s h₀ => .init (L := M.restrict Q) (s := s.2) h₀.2) fun s a t hs hr hstep => ?_
  obtain ⟨a, b⟩ := a
  cases b with
  | none =>
      show (M.restrict Q).Reachable t.2
      rw [stepOption_none.mp hstep.1.2.2]
      exact hr
  | some b => exact .step hr ⟨stepOption_some.mp hstep.1.2.2, hPQ s a b t hs hr hstep⟩

/-! ### Executable runs -/

/-- At most one step of a step function. -/
def stepOption (step : σ → ι → Option σ) (s : σ) : Option ι → Option σ
  | none => some s
  | some a => step s a

/-- One step of two step functions side by side, if the labels go together and the condition on the
step is met. -/
def guardedStep (stepL : σ → ι → Option σ) (stepM : τ → κ → Option τ)
    (R : Option ι → Option κ → Prop) (P : σ × τ → Option ι × Option κ → Prop) [DecidableRel R]
    [DecidableRel P] (s : σ × τ) (a : Option ι × Option κ) : Option (σ × τ) :=
  if R a.1 a.2 ∧ P s a then
    (stepOption stepL s.1 a.1).bind fun x => (stepOption stepM s.2 a.2).map fun y => (x, y)
  else none

theorem stepOption_of_eq_some {init : σ} {step : σ → ι → Option σ} {s t : σ} {a : Option ι}
    (h : stepOption step s a = some t) : (ofStep init step).StepOption s a t := by
  cases a with
  | none =>
      obtain rfl := Option.some.inj h
      exact .stay _
  | some a => exact .move h

/-- An executable run of two step functions side by side is a run. -/
theorem reachable_sync_of_runOps {init : σ} {stepL : σ → ι → Option σ} {init' : τ}
    {stepM : τ → κ → Option τ} {R : Option ι → Option κ → Prop}
    {P : σ × τ → Option ι × Option κ → Prop} [DecidableRel R] [DecidableRel P]
    {as : List (Option ι × Option κ)} {s : σ × τ}
    (h : runOps (guardedStep stepL stepM R P) (init, init') as = some s) :
    (((ofStep init stepL).sync (ofStep init' stepM) R).restrict P).Reachable s := by
  induction as using List.reverseRecOn generalizing s with
  | nil =>
      rw [runOps_nil, Option.some.injEq] at h
      subst h
      exact .init ⟨rfl, rfl⟩
  | append_singleton as a ih =>
      rw [runOps_concat] at h
      obtain ⟨t, ht, hs⟩ := Option.bind_eq_some_iff.mp h
      unfold guardedStep at hs
      split at hs
      · rename_i hRP
        obtain ⟨x, hx, hs⟩ := Option.bind_eq_some_iff.mp hs
        obtain ⟨y, hy, rfl⟩ := Option.map_eq_some_iff.mp hs
        exact .step (ih ht)
          ⟨⟨hRP.1, stepOption_of_eq_some hx, stepOption_of_eq_some hy⟩, hRP.2⟩
      · cases hs

end Lts

end DdTrace.Lib
