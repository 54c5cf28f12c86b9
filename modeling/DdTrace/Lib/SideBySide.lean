import DdTrace.Lib.Run

/-!
# Machines that run side by side

A system starts machines of one kind, one after another, and each of its steps is at most one step
of one of them.

* `SideBySide.Step`: what a step of the system can do to the machines.
* `Separate`: each machine has done a run of its own, and put out what the system has put out under
  its number.
* `SideBySide.Step.separate`: this is kept by every step.
-/

namespace DdTrace.Lib

variable {σ ι α β : Type*}

/-- A run is continued by an operation that meets the condition. -/
theorem AllSteps.concat {step : σ → α → Option (σ × List β)} {P : σ → α → Prop} {s t : σ}
    {ops : List α} {out : List β} (h : AllSteps step P s ops)
    (hrun : runOut step s ops = some (t, out)) {a : α} (ha : P t a) :
    AllSteps step P s (ops ++ [a]) := by
  intro pre b hpre u out' hrun'
  rcases List.prefix_concat_iff.mp hpre with heq | hbefore
  · obtain ⟨rfl, hab⟩ := List.append_inj' heq rfl
    obtain rfl := List.singleton_inj.mp hab
    obtain ⟨rfl, -⟩ := Prod.mk.inj (Option.some.inj (hrun.symm.trans hrun'))
    exact ha
  · exact h pre b hbefore u out' hrun'

/-- The elements of a list with one more element. -/
theorem getElem?_concat_eq_some {γ : Type*} {l : List γ} {a b : γ} {k : ℕ} :
    (l ++ [a])[k]? = some b ↔ l[k]? = some b ∨ k = l.length ∧ a = b := by
  by_cases hlt : k < l.length
  · rw [List.getElem?_append_left hlt]
    exact (or_iff_left fun h => Nat.ne_of_lt hlt h.1).symm
  · have hnone : l[k]? = none := List.getElem?_eq_none (Nat.le_of_not_lt hlt)
    rw [List.getElem?_append_right (Nat.le_of_not_lt hlt), hnone]
    constructor
    · intro h
      have hzero := List.getElem?_eq_some_iff.mp h
      obtain ⟨hpos, heq⟩ := hzero
      rw [List.length_singleton] at hpos
      refine Or.inr ⟨by omega, ?_⟩
      rw [← heq, List.getElem_singleton]
    · rintro (h | ⟨rfl, rfl⟩)
      · cases h
      · simp

/-- Machines of one kind: how they are started and with what, what they do, and in which states an
operation is allowed. -/
structure SideBySide (σ ι α β : Type*) where
  start : ι → σ
  Starts : ι → Prop
  step : σ → α → Option (σ × List β)
  Allowed : σ → α → Prop

namespace SideBySide

variable {M : SideBySide σ ι α β}

/-- What a step of the system does to the machines, and what it puts out, with the number of the
machine. -/
inductive Step (M : SideBySide σ ι α β) (machines : List σ) : List σ → List (ℕ × β) → Prop
  | idle : Step M machines machines []
  | start (i : ι) (h : M.Starts i) : Step M machines (machines ++ [M.start i]) []
  | act (k : ℕ) (a : α) (t u : σ) (new : List β) (hk : machines[k]? = some t) (ha : M.Allowed t a)
      (h : M.step t a = some (u, new)) :
      Step M machines (machines.set k u) (new.map fun x => (k, x))

/-- What was put out under a number. -/
def outputOf (k : ℕ) (out : List (ℕ × β)) : List β :=
  out.filterMap fun x => if x.1 = k then some x.2 else none

@[simp] theorem outputOf_nil (k : ℕ) : outputOf k ([] : List (ℕ × β)) = [] := rfl

theorem outputOf_append (k : ℕ) (out new : List (ℕ × β)) :
    outputOf k (out ++ new) = outputOf k out ++ outputOf k new :=
  List.filterMap_append

theorem outputOf_self (k : ℕ) (new : List β) : outputOf k (new.map fun x => (k, x)) = new := by
  rw [outputOf, List.filterMap_map]
  simp [Function.comp_def]

theorem outputOf_of_ne {k j : ℕ} (h : j ≠ k) (new : List β) :
    outputOf k (new.map fun x => (j, x)) = [] := by
  rw [outputOf, List.filterMap_map]
  simp [Function.comp_def, h]

/-- Every machine has done a run of its own, whatever the others have done. -/
structure Separate (M : SideBySide σ ι α β) (machines : List σ) (out : List (ℕ × β)) : Prop where
  run : ∀ k t, machines[k]? = some t → ∃ i ops, M.Starts i ∧ AllSteps M.step M.Allowed (M.start i) ops ∧
    runOut M.step (M.start i) ops = some (t, outputOf k out)
  none : ∀ k, machines.length ≤ k → outputOf k out = []

theorem separate_nil : Separate M [] [] := ⟨fun k t h => by simp at h, fun _ _ => rfl⟩

/-- **A step of the system** is at most one step of one machine. -/
theorem Step.separate {machines machines' : List σ} {out new : List (ℕ × β)}
    (h : M.Step machines machines' new) (hs : M.Separate machines out) :
    M.Separate machines' (out ++ new) := by
  cases h with
  | idle =>
      rw [List.append_nil]
      exact hs
  | start i hi =>
      rw [List.append_nil]
      refine ⟨fun k t hk => ?_, fun k hk => ?_⟩
      · rcases getElem?_concat_eq_some.mp hk with hk | ⟨rfl, rfl⟩
        · exact hs.run k t hk
        · refine ⟨i, [], hi, allSteps_nil _ _ _, ?_⟩
          rw [hs.none _ (Nat.le_refl _), runOut_nil]
      · refine hs.none k (Nat.le_trans ?_ hk)
        rw [List.length_append]
        exact Nat.le_add_right _ _
  | act k a t u now hk ha hstep =>
      have hlt : k < machines.length := (List.getElem?_eq_some_iff.mp hk).1
      refine ⟨fun j v hj => ?_, fun j hj => ?_⟩
      · rw [outputOf_append]
        by_cases hjk : j = k
        · subst hjk
          rw [List.getElem?_set_self hlt, Option.some.injEq] at hj
          subst hj
          obtain ⟨i, ops, hi, hall, hrun⟩ := hs.run j t hk
          refine ⟨i, ops ++ [a], hi, hall.concat hrun ha, ?_⟩
          rw [runOut_concat, hrun, Option.bind_some, hstep, Option.map_some, outputOf_self]
        · rw [List.getElem?_set_ne (Ne.symm hjk)] at hj
          rw [outputOf_of_ne (Ne.symm hjk), List.append_nil]
          exact hs.run j v hj
      · rw [List.length_set] at hj
        rw [outputOf_append, hs.none j hj, outputOf_of_ne (by omega), List.append_nil]

end SideBySide

end DdTrace.Lib
