import Mathlib.Data.List.Induction
import Mathlib.Tactic.Common

/-!
# Runs of state machines

Two notions of run of a deterministic machine, each with the one induction rule its users need.

* `runOps step s ops`: a deterministic machine whose operations may fail; the run is `none` as
  soon as one operation fails. The rule `runOps_invariant` carries an invariant that may mention
  the operations done so far, and gives both success and the invariant. `AllOps` says that every
  operation of a run meets a condition in the state before it; `runOps_exact_iff_along` and
  `runOps_exact_iff` turn the exact condition on one step into the exact condition on the states of
  a run.
* `runOut step s ops`: a machine whose operations may fail and put out values; `AllSteps` says that
  every operation of a run meets a condition in the state before it, and `runOut_invariant`
  carries an invariant over the values put out so far through the runs of that kind; `runOut_keeps`
  does so for the runs that succeed. `EachAfter` says that every value meets a condition with those
  that were put out before it.
* `List.foldl step s ops`: a machine whose operations never fail; `foldl_exact_iff_along` and
  `foldl_exact_iff` turn the exact condition on one step into the exact condition on a run.
-/

namespace DdTrace.Lib

variable {σ α β : Type*}

/-! ## Deterministic machines with failing operations -/

/-- Execute `ops` from `s`, stopping with `none` at the first operation that fails. -/
def runOps (step : σ → α → Option σ) : σ → List α → Option σ
  | s, [] => some s
  | s, a :: as => (step s a).bind fun t => runOps step t as

@[simp] theorem runOps_nil (step : σ → α → Option σ) (s : σ) : runOps step s [] = some s := rfl

/-- A run of a concatenation is the run of the second part after the first. -/
theorem runOps_append (step : σ → α → Option σ) (s : σ) (xs ys : List α) :
    runOps step s (xs ++ ys) = (runOps step s xs).bind fun t => runOps step t ys := by
  induction xs generalizing s with
  | nil => rfl
  | cons a as ih =>
      simp only [List.cons_append, runOps]
      cases step s a with
      | none => rfl
      | some t => exact ih t

/-- A run extended by one operation. -/
theorem runOps_concat (step : σ → α → Option σ) (s : σ) (xs : List α) (a : α) :
    runOps step s (xs ++ [a]) = (runOps step s xs).bind fun t => step t a := by
  rw [runOps_append]
  cases runOps step s xs with
  | none => rfl
  | some t => simp [runOps]

/-- **The run rule for failing operations.** If `I` holds at the start and every operation that
keeps the list of operations `Allowed` succeeds and keeps `I`, then every run whose prefixes are
all `Allowed` succeeds and ends in `I`. -/
theorem runOps_invariant {step : σ → α → Option σ} {s : σ} {Allowed : List α → Prop}
    {I : List α → σ → Prop} (hstart : I [] s)
    (hstep : ∀ done a t, Allowed (done ++ [a]) → I done t →
      ∃ u, step t a = some u ∧ I (done ++ [a]) u)
    (ops : List α) (hallowed : ∀ pre, pre <+: ops → Allowed pre) :
    ∃ t, runOps step s ops = some t ∧ I ops t := by
  induction ops using List.reverseRecOn with
  | nil => exact ⟨s, rfl, hstart⟩
  | append_singleton done a ih =>
      obtain ⟨t, hrun, ht⟩ := ih fun pre hpre => hallowed pre (hpre.trans (List.prefix_append _ _))
      obtain ⟨u, hu, hI⟩ := hstep done a t (hallowed _ List.prefix_rfl) ht
      exact ⟨u, by rw [runOps_concat, hrun]; exact hu, hI⟩

/-- Every operation of a run meets `P` in the state before it. -/
def AllOps (step : σ → α → Option σ) (P : σ → α → Prop) (s : σ) (ops : List α) : Prop :=
  ∀ pre a, pre ++ [a] <+: ops → ∀ t, runOps step s pre = some t → P t a

theorem AllOps.of_initial {step : σ → α → Option σ} {P : σ → α → Prop} {s : σ} {ops pre : List α}
    (h : AllOps step P s ops) (hpre : pre <+: ops) : AllOps step P s pre :=
  fun pre' a hpre' t hrun => h pre' a (hpre'.trans hpre) t hrun

@[simp] theorem allOps_nil (step : σ → α → Option σ) (P : σ → α → Prop) (s : σ) :
    AllOps step P s [] := by
  intro pre a hpre
  simp at hpre

/-- The operations of a run are its first one and those of the rest. -/
theorem allOps_cons {step : σ → α → Option σ} {P : σ → α → Prop} {s : σ} {a : α} {as : List α}
    (hfirst : P s a) (hrest : ∀ t, step s a = some t → AllOps step P t as) :
    AllOps step P s (a :: as) := by
  intro pre b hpre u hrun
  cases pre with
  | nil =>
      obtain rfl := Option.some.inj hrun
      rw [List.nil_append, List.cons_prefix_cons] at hpre
      rw [hpre.1]
      exact hfirst
  | cons c pre =>
      rw [List.cons_append, List.cons_prefix_cons] at hpre
      obtain ⟨rfl, hpre⟩ := hpre
      obtain ⟨t, ht, hrun⟩ := Option.bind_eq_some_iff.mp hrun
      exact hrest t ht pre b hpre u hrun

/-- **The run rule for operations that meet a condition.** If every operation that meets `A` succeeds
and keeps `I`, then every run whose operations meet `A` succeeds and ends in `I`. -/
theorem runOps_invariant_of_allOps {step : σ → α → Option σ} {A : σ → α → Prop} {I : σ → Prop}
    {s : σ} (hstart : I s) (hstep : ∀ t a, I t → A t a → ∃ u, step t a = some u ∧ I u)
    {ops : List α} (hall : AllOps step A s ops) : ∃ t, runOps step s ops = some t ∧ I t := by
  induction ops using List.reverseRecOn with
  | nil => exact ⟨s, rfl, hstart⟩
  | append_singleton pre a ih =>
      obtain ⟨t, hrun, ht⟩ := ih (hall.of_initial (List.prefix_append pre [a]))
      obtain ⟨u, hu, hI⟩ := hstep t a ht (hall pre a List.prefix_rfl t hrun)
      exact ⟨u, by rw [runOps_concat, hrun]; exact hu, hI⟩

/-- **The exact run rule for failing operations.** If every operation that meets `A` succeeds, those
that also meet `C` keep `I`, and `P` is kept exactly by those that meet `C`, then `P` holds in every
state of a run exactly when every operation of the run meets `C`. -/
theorem runOps_exact_iff_along {step : σ → α → Option σ} {A C : σ → α → Prop} {I P : σ → Prop}
    {s : σ} (hI : I s) (hP : P s)
    (hinv : ∀ t a, I t → A t a → ∃ u, step t a = some u ∧ (C t a → I u))
    (hstep : ∀ t a u, I t → P t → A t a → step t a = some u → (P u ↔ C t a)) {ops : List α}
    (hall : AllOps step A s ops) :
    (∀ pre, pre <+: ops → ∃ t, runOps step s pre = some t ∧ P t) ↔ AllOps step C s ops := by
  have hkeeps : ∀ pre, pre <+: ops → AllOps step C s pre →
      ∃ t, runOps step s pre = some t ∧ I t ∧ P t := by
    intro pre hpre hC
    induction pre using List.reverseRecOn with
    | nil => exact ⟨s, rfl, hI, hP⟩
    | append_singleton pre a ih =>
        have hinitial := (List.prefix_append pre [a]).trans hpre
        obtain ⟨t, hrun, hIt, hPt⟩ := ih hinitial (hC.of_initial (List.prefix_append pre [a]))
        have hA := hall pre a hpre t hrun
        have hCt := hC pre a List.prefix_rfl t hrun
        obtain ⟨u, hu, hIu⟩ := hinv t a hIt hA
        exact ⟨u, by rw [runOps_concat, hrun]; exact hu, hIu hCt,
          (hstep t a u hIt hPt hA hu).mpr hCt⟩
  constructor
  · intro h
    have hgood : ∀ pre, pre <+: ops → AllOps step C s pre := by
      intro pre hpre
      induction pre using List.reverseRecOn with
      | nil => exact allOps_nil step C s
      | append_singleton pre a ih =>
          have hinitial := (List.prefix_append pre [a]).trans hpre
          obtain ⟨t, hrun, hIt, hPt⟩ := hkeeps pre hinitial (ih hinitial)
          obtain ⟨u, hu, hPu⟩ := h (pre ++ [a]) hpre
          rw [runOps_concat, hrun, Option.bind_some] at hu
          have hCt := (hstep t a u hIt hPt (hall pre a hpre t hrun) hu).mp hPu
          intro pre' b hpre' t' hrun'
          rcases List.prefix_concat_iff.mp hpre' with heq | hbefore
          · obtain ⟨rfl, hab⟩ := List.append_inj' heq rfl
            obtain rfl := List.singleton_inj.mp hab
            obtain rfl := Option.some.inj (hrun.symm.trans hrun')
            exact hCt
          · exact ih hinitial pre' b hbefore t' hrun'
    exact hgood ops List.prefix_rfl
  · intro h pre hpre
    obtain ⟨t, hrun, -, hPt⟩ := hkeeps pre hpre (h.of_initial hpre)
    exact ⟨t, hrun, hPt⟩

/-- The exact run rule where all operations that meet `A` keep `I`. -/
theorem runOps_exact_iff {step : σ → α → Option σ} {A C : σ → α → Prop} {I P : σ → Prop} {s : σ}
    (hI : I s) (hP : P s) (hinv : ∀ t a, I t → A t a → ∃ u, step t a = some u ∧ I u)
    (hstep : ∀ t a u, I t → P t → A t a → step t a = some u → (P u ↔ C t a)) {ops : List α}
    (hall : AllOps step A s ops) :
    (∀ pre, pre <+: ops → ∃ t, runOps step s pre = some t ∧ P t) ↔ AllOps step C s ops := by
  refine runOps_exact_iff_along hI hP (fun t a hIt hA => ?_) hstep hall
  obtain ⟨u, hu, hIu⟩ := hinv t a hIt hA
  exact ⟨u, hu, fun _ => hIu⟩

/-! ## Machines that put out values -/

/-- Execute `ops` from `s`, collecting what the operations put out and stopping with `none` at the
first operation that fails. -/
def runOut (step : σ → α → Option (σ × List β)) : σ → List α → Option (σ × List β)
  | s, [] => some (s, [])
  | s, a :: as =>
      (step s a).bind fun now => (runOut step now.1 as).map fun later =>
        (later.1, now.2 ++ later.2)

@[simp] theorem runOut_nil (step : σ → α → Option (σ × List β)) (s : σ) :
    runOut step s [] = some (s, []) := rfl

/-- A run of a concatenation is the run of the second part after the first. -/
theorem runOut_append (step : σ → α → Option (σ × List β)) (s : σ) (xs ys : List α) :
    runOut step s (xs ++ ys) = (runOut step s xs).bind fun now =>
      (runOut step now.1 ys).map fun later => (later.1, now.2 ++ later.2) := by
  induction xs generalizing s with
  | nil =>
      rw [List.nil_append, runOut_nil, Option.bind_some]
      cases runOut step s ys with
      | none => rfl
      | some r => rfl
  | cons a as ih =>
      simp only [List.cons_append, runOut]
      cases hstep : step s a with
      | none => rfl
      | some now =>
          simp only [Option.bind_some, ih]
          cases runOut step now.1 as with
          | none => rfl
          | some mid =>
              simp only [Option.bind_some, Option.map_some]
              cases runOut step mid.1 ys with
              | none => rfl
              | some last => simp

/-- A run extended by one operation. -/
theorem runOut_concat (step : σ → α → Option (σ × List β)) (s : σ) (xs : List α) (a : α) :
    runOut step s (xs ++ [a]) = (runOut step s xs).bind fun now =>
      (step now.1 a).map fun later => (later.1, now.2 ++ later.2) := by
  rw [runOut_append]
  cases runOut step s xs with
  | none => rfl
  | some now =>
      simp only [Option.bind_some, runOut]
      cases step now.1 a with
      | none => rfl
      | some later => simp

/-- Every operation of a run meets `P` in the state before it. -/
def AllSteps (step : σ → α → Option (σ × List β)) (P : σ → α → Prop) (s : σ) (ops : List α) :
    Prop :=
  ∀ pre a, pre ++ [a] <+: ops → ∀ t out, runOut step s pre = some (t, out) → P t a

theorem AllSteps.of_initial {step : σ → α → Option (σ × List β)} {P : σ → α → Prop} {s : σ}
    {ops pre : List α} (h : AllSteps step P s ops) (hpre : pre <+: ops) :
    AllSteps step P s pre :=
  fun pre' a hpre' t out hrun => h pre' a (hpre'.trans hpre) t out hrun

@[simp] theorem allSteps_nil (step : σ → α → Option (σ × List β)) (P : σ → α → Prop) (s : σ) :
    AllSteps step P s [] := by
  intro pre a hpre
  simp at hpre

/-- A condition that the operations meet in every state. -/
theorem AllSteps.of_forall {step : σ → α → Option (σ × List β)} {P : σ → α → Prop} {s : σ}
    {ops : List α} (h : ∀ t a, a ∈ ops → P t a) : AllSteps step P s ops :=
  fun pre a hpre t _ _ => h t a (hpre.mem (List.mem_append_right pre List.mem_cons_self))

/-- The steps of a run are its first step and the steps of the rest. -/
theorem allSteps_cons (step : σ → α → Option (σ × List β)) (P : σ → α → Prop) (s : σ) (a : α)
    (as : List α) :
    AllSteps step P s (a :: as) ↔
      P s a ∧ ∀ t new, step s a = some (t, new) → AllSteps step P t as := by
  constructor
  · intro h
    refine ⟨h [] a (by simp) s [] rfl, fun t new ht pre b hpre u out hrun => ?_⟩
    refine h (a :: pre) b ?_ u (new ++ out) ?_
    · rw [List.cons_append]
      exact List.cons_prefix_cons.mpr ⟨rfl, hpre⟩
    · rw [runOut, ht, Option.bind_some, hrun, Option.map_some]
  · rintro ⟨hfirst, hrest⟩ pre b hpre u out hrun
    cases pre with
    | nil =>
        rw [runOut_nil, Option.some.injEq, Prod.mk.injEq] at hrun
        rw [List.nil_append, List.cons_prefix_cons] at hpre
        rw [← hrun.1, hpre.1]
        exact hfirst
    | cons c pre =>
        rw [List.cons_append, List.cons_prefix_cons] at hpre
        obtain ⟨rfl, hpre⟩ := hpre
        rw [runOut] at hrun
        obtain ⟨⟨t, new⟩, ht, hrun⟩ := Option.bind_eq_some_iff.mp hrun
        obtain ⟨⟨u', out'⟩, hrun', heq⟩ := Option.map_eq_some_iff.mp hrun
        rw [Prod.mk.injEq] at heq
        rw [← heq.1]
        exact hrest t new ht pre b hpre u' out' hrun'

/-- Two conditions on the steps of a run. -/
theorem AllSteps.and {step : σ → α → Option (σ × List β)} {P Q : σ → α → Prop} {s : σ}
    {ops : List α} (hP : AllSteps step P s ops) (hQ : AllSteps step Q s ops) :
    AllSteps step (fun t a => P t a ∧ Q t a) s ops :=
  fun pre a hpre t out hrun => ⟨hP pre a hpre t out hrun, hQ pre a hpre t out hrun⟩

/-- **The run rule for output.** If `I` holds at the start with nothing put out, and every
operation that meets `P` succeeds and keeps `I`, then every run whose operations all meet `P`
succeeds and ends in `I`. -/
theorem runOut_invariant {step : σ → α → Option (σ × List β)} {P : σ → α → Prop}
    {I : List β → σ → Prop} {s : σ} (hstart : I [] s)
    (hstep : ∀ out t a, I out t → P t a → ∃ u new, step t a = some (u, new) ∧ I (out ++ new) u)
    (ops : List α) (hall : AllSteps step P s ops) :
    ∃ t out, runOut step s ops = some (t, out) ∧ I out t := by
  induction ops using List.reverseRecOn with
  | nil => exact ⟨s, [], rfl, hstart⟩
  | append_singleton done a ih =>
      obtain ⟨t, out, hrun, hI⟩ := ih (hall.of_initial (List.prefix_append _ _))
      obtain ⟨u, new, hu, hI'⟩ := hstep out t a hI (hall done a List.prefix_rfl t out hrun)
      refine ⟨u, out ++ new, ?_, hI'⟩
      rw [runOut_concat, hrun, Option.bind_some, hu, Option.map_some]

/-- **The run rule for output, for runs that succeed.** If `I` holds at the start with nothing put
out, and every operation that meets `P` and succeeds keeps `I`, then `I` holds after every run that
succeeds and of which all operations meet `P`. -/
theorem runOut_keeps {step : σ → α → Option (σ × List β)} {P : σ → α → Prop}
    {I : List β → σ → Prop} {s : σ} (hstart : I [] s)
    (hstep : ∀ out t a u new, I out t → P t a → step t a = some (u, new) → I (out ++ new) u)
    {ops : List α} (hall : AllSteps step P s ops) {t : σ} {out : List β}
    (hrun : runOut step s ops = some (t, out)) : I out t := by
  induction ops using List.reverseRecOn generalizing t out with
  | nil =>
      obtain ⟨rfl, rfl⟩ := Prod.mk.inj (Option.some.inj hrun)
      exact hstart
  | append_singleton done a ih =>
      rw [runOut_concat] at hrun
      obtain ⟨⟨u, before⟩, hbefore, hlast⟩ := Option.bind_eq_some_iff.mp hrun
      obtain ⟨⟨v, new⟩, hnew, heq⟩ := Option.map_eq_some_iff.mp hlast
      obtain ⟨rfl, rfl⟩ := Prod.mk.inj heq
      have hI := ih (hall.of_initial (List.prefix_append _ _)) hbefore
      exact hstep before u a v new hI (hall done a List.prefix_rfl u before hbefore) hnew

/-- Every value that was put out meets `P` with those before it. -/
def EachAfter (P : List β → β → Prop) (out : List β) : Prop :=
  ∀ before b, before ++ [b] <+: out → P before b

theorem eachAfter_nil (P : List β → β → Prop) : EachAfter P [] := by
  intro before b hprefix
  simp at hprefix

theorem EachAfter.concat {P : List β → β → Prop} {out : List β} (h : EachAfter P out) {b : β}
    (hb : P out b) : EachAfter P (out ++ [b]) := by
  intro before c hprefix
  rcases List.prefix_concat_iff.mp hprefix with heq | hbefore
  · obtain ⟨rfl, hbc⟩ := List.append_inj' heq rfl
    obtain rfl := List.singleton_inj.mp hbc
    exact hb
  · exact h before c hbefore

/-! ## Machines that never fail -/

/-- **The exact run rule.** If the steps that meet `C` keep `I`, and every step from a state with `P`
keeps `P` exactly when it meets `C`, then `P` holds all along a run exactly when every step of the
run meets `C`. -/
theorem foldl_exact_iff_along {step : σ → α → σ} {I P : σ → Prop} {C : σ → α → Prop} {s : σ}
    (hI : I s) (hP : P s) (hinv : ∀ t a, I t → P t → C t a → I (step t a))
    (hstep : ∀ t a, I t → P t → (P (step t a) ↔ C t a)) (ops : List α) :
    (∀ pre, pre <+: ops → P (pre.foldl step s)) ↔
      ∀ pre a, pre ++ [a] <+: ops → C (pre.foldl step s) a := by
  constructor
  · intro h
    have hboth : ∀ pre, pre <+: ops → I (pre.foldl step s) ∧
        ∀ pre' a, pre' ++ [a] <+: pre → C (pre'.foldl step s) a := by
      intro pre hpre
      induction pre using List.reverseRecOn with
      | nil => exact ⟨hI, fun pre' a h' => by simp at h'⟩
      | append_singleton pre a ih =>
          have hinitial := (List.prefix_append pre [a]).trans hpre
          obtain ⟨hIpre, hCpre⟩ := ih hinitial
          have hafter := h (pre ++ [a]) hpre
          rw [List.foldl_append, List.foldl_cons, List.foldl_nil] at hafter
          have hC := (hstep _ a hIpre (h pre hinitial)).mp hafter
          rw [List.foldl_append, List.foldl_cons, List.foldl_nil]
          refine ⟨hinv _ a hIpre (h pre hinitial) hC, fun pre' b hpre' => ?_⟩
          rcases List.prefix_concat_iff.mp hpre' with heq | hbefore
          · obtain ⟨rfl, hab⟩ := List.append_inj' heq rfl
            obtain rfl := List.singleton_inj.mp hab
            exact hC
          · exact hCpre pre' b hbefore
    intro pre a hpre
    exact (hboth (pre ++ [a]) hpre).2 pre a List.prefix_rfl
  · intro h pre hpre
    have hboth : I (pre.foldl step s) ∧ P (pre.foldl step s) := by
      induction pre using List.reverseRecOn with
      | nil => exact ⟨hI, hP⟩
      | append_singleton pre a ih =>
          obtain ⟨hIpre, hPpre⟩ := ih ((List.prefix_append pre [a]).trans hpre)
          have hC := h pre a hpre
          rw [List.foldl_append, List.foldl_cons, List.foldl_nil]
          exact ⟨hinv _ a hIpre hPpre hC, (hstep _ a hIpre hPpre).mpr hC⟩
    exact hboth.2

/-- The exact run rule where all steps keep `I`. -/
theorem foldl_exact_iff {step : σ → α → σ} {I P : σ → Prop} {C : σ → α → Prop} {s : σ}
    (hI : I s) (hP : P s) (hinv : ∀ t a, I t → I (step t a))
    (hstep : ∀ t a, I t → P t → (P (step t a) ↔ C t a)) (ops : List α) :
    (∀ pre, pre <+: ops → P (pre.foldl step s)) ↔
      ∀ pre a, pre ++ [a] <+: ops → C (pre.foldl step s) a :=
  foldl_exact_iff_along hI hP (fun t a hIt _ _ => hinv t a hIt) hstep ops

end DdTrace.Lib
