import Mathlib.Data.Option.Basic
import Mathlib.Tactic.Common

/-!
# A value that can be changed until it is published

A `LatchedCell` holds at most one value. Assignments change it until it is published for the first
time with a value in it; from then on it is latched and assignments are ignored. So all values that
are ever published are the same (`LatchedCell.Agreed` and its step rule).
-/

namespace DdTrace.Lib

variable {V : Type*}

/-- A cell with a latch. -/
structure LatchedCell (V : Type*) where
  /-- The value. -/
  value : Option V
  /-- Assignments are ignored. -/
  latched : Bool

namespace LatchedCell

/-- What can be done to a cell. -/
inductive Action (V : Type*) where
  /-- Change the value, or take it away. -/
  | assign (value : Option V)
  /-- Publish the value, and latch the cell if there is one. -/
  | publish

/-- The cell after an action. -/
def step (c : LatchedCell V) : Action V → LatchedCell V
  | .assign v => if c.latched then c else { c with value := v }
  | .publish => if c.value.isSome then { c with latched := true } else c

/-- The cell after at most one action. -/
def stepOption (c : LatchedCell V) : Option (Action V) → LatchedCell V
  | none => c
  | some a => c.step a

@[simp] theorem stepOption_none (c : LatchedCell V) : c.stepOption none = c := rfl

@[simp] theorem stepOption_some (c : LatchedCell V) (a : Action V) :
    c.stepOption (some a) = c.step a := rfl

@[simp] theorem step_publish_value (c : LatchedCell V) : (c.step .publish).value = c.value := by
  unfold step
  split_ifs <;> rfl

/-- Of two assignments in a row, the second counts. -/
theorem step_assign_assign (c : LatchedCell V) (v w : Option V) :
    (c.step (.assign v)).step (.assign w) = c.step (.assign w) := by
  unfold step
  by_cases h : c.latched = true
  · simp [h]
  · simp [h]

/-- Publishing a value latches the cell. -/
theorem step_publish_latched {c : LatchedCell V} (hv : c.value.isSome = true) :
    (c.step .publish).latched = true := by
  simp [step, hv]

/-- **A latched cell keeps its value**, and stays latched. -/
theorem step_of_latched {c : LatchedCell V} (hc : c.latched = true) (a : Action V) :
    (c.step a).value = c.value ∧ (c.step a).latched = true := by
  cases a with
  | assign v =>
      have hstep : c.step (.assign v) = c := if_pos hc
      rw [hstep]
      exact ⟨rfl, hc⟩
  | publish =>
      refine ⟨step_publish_value c, ?_⟩
      unfold step
      split_ifs
      · rfl
      · exact hc

/-- The same for at most one action. -/
theorem stepOption_of_latched {c : LatchedCell V} (hc : c.latched = true)
    (a : Option (Action V)) : (c.stepOption a).value = c.value ∧ (c.stepOption a).latched = true := by
  cases a with
  | none => exact ⟨rfl, hc⟩
  | some a => exact step_of_latched hc a

/-- A value `v` was published by a cell that is `c` now: the cell is latched, on that value. -/
def Agreed (c : LatchedCell V) (v : V) : Prop := c.latched = true ∧ c.value = some v

/-- What was published stays agreed. -/
theorem Agreed.stepOption {c : LatchedCell V} {v : V} (h : c.Agreed v) (a : Option (Action V)) :
    (c.stepOption a).Agreed v := by
  obtain ⟨hlatched, hvalue⟩ := h
  obtain ⟨hkeep, hlatched'⟩ := stepOption_of_latched hlatched a
  exact ⟨hlatched', hkeep.trans hvalue⟩

/-- What is published is agreed from then on. -/
theorem agreed_publish {c : LatchedCell V} {v : V} (hv : c.value = some v) :
    (c.step .publish).Agreed v := by
  refine ⟨step_publish_latched (by simp [hv]), ?_⟩
  rw [step_publish_value]
  exact hv

/-- The action changes the value to another one. -/
def Changes (c : LatchedCell V) (v : V) (a : Option (Action V)) : Prop :=
  c.latched = false ∧ ∃ w, a = some (.assign w) ∧ w ≠ some v

/-- **A step keeps the value `v` exactly when it does not change it.** -/
theorem stepOption_value_iff {c : LatchedCell V} {v : V} (hv : c.value = some v)
    (a : Option (Action V)) : (c.stepOption a).value = some v ↔ ¬c.Changes v a := by
  constructor
  · rintro h ⟨hlatched, w, rfl, hne⟩
    apply hne
    simpa [step, hlatched] using h
  · intro h
    cases a with
    | none => exact hv
    | some a =>
        cases a with
        | publish => exact (step_publish_value c).trans hv
        | assign w =>
            by_cases hlatched : c.latched = true
            · exact (step_of_latched hlatched _).1.trans hv
            · have hw : w = some v := by
                by_contra hne
                exact h ⟨by simpa using hlatched, w, rfl, hne⟩
              have hstep : c.step (.assign w) = { c with value := w } := if_neg hlatched
              rw [stepOption_some, hstep]
              exact hw

end LatchedCell

end DdTrace.Lib
